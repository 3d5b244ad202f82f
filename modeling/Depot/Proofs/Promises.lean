import Depot.Proofs.Run

/-!
# Promised files stay

Whoever is told that a job is ready is promised its files until the job expires. A file may be shared by
many jobs, and each of them is promised it until another time; whoever transfers it, gives it up or lets it
be evicted knows of none of them. All promises are kept nevertheless, for each of them has moved the unlock
time of the record as far as was promised, and nothing moves it back as long as the record is kept. What
becomes of the job does not matter: the file of a job that was cancelled stays too.

## Main statements

* `Inventory.KeptUntil.deed` — a file is kept as long as before, or longer, unless it is evicted.
* `Site.Honours.deed` — whatever happens, promises are honoured.
* `shared_files_outlive_promises` — so they are in every run.
-/

namespace Depot

open Time

variable {s s' : Site}

/-! ### Promises -/

/-- Whether an entry of the log tells that a file was evicted. -/
def Happening.evicts (id : FileId) (h : Happening) : Bool := h.eviction?.any fun x => x.1.fileId = id

theorem Happening.evicts_of_quiet {h : Happening} (quiet : h.eviction? = none) (id : FileId) :
    h.evicts id = false := by
  rw [evicts, quiet]
  rfl

theorem Happening.evicts_evicted {f : FileRecord} {moment : Instant} {left : Inventory} {id : FileId} :
    (evicted f moment left).evicts id = false ↔ f.fileId ≠ id := by
  simp [evicts, eviction?]

/-- What becomes of the promises of a file when something is logged: a job that is ready is promised it
until the job expires, and its eviction ends all of them. -/
def Happening.promise (id : FileId) (standing : List (RequestId × Instant)) (h : Happening) :
    List (RequestId × Instant) :=
  if h.evicts id then [] else
    match h with
    | .told (.ready r expiry) => standing ++ [(r, expiry)]
    | _ => standing

/-- **The promises of a file**, as a log tells: until when each job that was told to be ready was promised
its files, since this one was evicted last. -/
def promisesOf (id : FileId) (log : List Happening) : List (RequestId × Instant) :=
  log.foldl (Happening.promise id) []

variable {log : List Happening} {id : FileId} {r : RequestId} {expiry : Instant}

theorem promised_of_snoc {h : Happening} (promised : (r, expiry) ∈ promisesOf id (log ++ [h])) :
    h = .told (.ready r expiry) ∨ (r, expiry) ∈ promisesOf id log ∧ h.evicts id = false := by
  rw [promisesOf, List.foldl_concat] at promised
  change (r, expiry) ∈ Happening.promise id (promisesOf id log) h at promised
  unfold Happening.promise at promised
  cases hspared : h.evicts id with
  | true =>
    rw [hspared, if_pos rfl] at promised
    cases promised
  | false =>
    rw [hspared, if_neg Bool.false_ne_true] at promised
    split at promised
    · rcases List.mem_append.1 promised with hold | hnew
      · exact .inr ⟨hold, rfl⟩
      · cases List.mem_singleton.1 hnew
        exact .inl rfl
    · exact .inr ⟨promised, rfl⟩

/-- What makes no promise leaves only old ones. -/
theorem promised_of_append {more : List Happening} (promised : (r, expiry) ∈ promisesOf id (log ++ more))
    (unsaid : ∀ h ∈ more, h.status? r = none) : (r, expiry) ∈ promisesOf id log := by
  induction more using List.reverseRecOn with
  | nil => rwa [List.append_nil] at promised
  | append_singleton more h ih =>
    rw [← List.append_assoc] at promised
    rcases promised_of_snoc promised with rfl | ⟨hold, -⟩
    · have hsaid := unsaid (.told (.ready r expiry)) (List.mem_append_right _ (.head _))
      rw [Happening.status?, Notice.request, if_pos rfl] at hsaid
      cases hsaid
    · exact ih hold fun e he => unsaid e (List.mem_append_left _ he)

/-- Where no eviction was logged, evictions are those from before. -/
theorem prefix_of_quiet {more before : List Happening} {h : Happening}
    (hbegins : before ++ [h] <+: log ++ more) (loud : h.eviction?.isSome = true)
    (quiet : ∀ h ∈ more, h.eviction? = none) : before ++ [h] <+: log := by
  induction more using List.reverseRecOn with
  | nil => rwa [List.append_nil] at hbegins
  | append_singleton more h' ih =>
    rw [← List.append_assoc, List.prefix_concat_iff] at hbegins
    rcases hbegins with heq | hbegins
    · obtain rfl := List.singleton_inj.1 (List.append_inj' heq rfl).2
      rw [quiet h (List.mem_append_right _ (.head _))] at loud
      cases loud
    · exact ih hbegins fun e he => quiet e (List.mem_append_left _ he)

/-! ### Unlock times -/

/-- A record may not be evicted before a time. -/
def FileRecord.KeptUntil (f : FileRecord) (time : Instant) : Prop :=
  ∃ u, f.unlockAt = some u ∧ time ≤ u

/-- A file has a record that may not be evicted before a time. -/
def Inventory.KeptUntil (v : Inventory) (id : FileId) (time : Instant) : Prop :=
  ∃ f, v.files.get? id = some f ∧ f.KeptUntil time

theorem FileRecord.KeptUntil.extendUnlock {f : FileRecord} {time : Instant} (h : f.KeptUntil time)
    (moment : Instant) : (f.extendUnlock moment).KeptUntil time := by
  obtain ⟨u, hu, hle⟩ := h
  obtain ⟨u', hu', -, hlater⟩ := f.unlockAt_extendUnlock moment
  exact ⟨u', hu', Int.le_trans hle (hlater u hu)⟩

/-- A record that is evicted was not kept beyond that. -/
theorem Evicts.lt_now {f : FileRecord} {time : Instant} (e : Evicts s s' f)
    (h : s.inventory.KeptUntil f.fileId time) : f.KeptUntil time ∧ time < s.clock.now := by
  obtain ⟨g, hg, hkept⟩ := h
  rw [e.kept] at hg
  cases hg
  obtain ⟨u, hu, hle⟩ := hkept
  obtain ⟨u', hu', hlt⟩ := e.unlocked
  rw [hu] at hu'
  cases hu'
  exact ⟨⟨u, hu, hle⟩, Int.lt_of_le_of_lt hle hlt⟩

namespace Inventory.KeptUntil

variable {time : Instant}

theorem of_files {v v' : Inventory} (h : v.KeptUntil id time) (files : v'.files = v.files) :
    v'.KeptUntil id time := by
  unfold KeptUntil
  rw [files]
  exact h

/-- A record is written that is kept as long as the one before it. -/
theorem saveFile {v : Inventory} (h : v.KeptUntil id time) {f : FileRecord}
    (later : ∀ f₀, v.files.get? f.fileId = some f₀ → f₀.KeptUntil time → f.KeptUntil time) :
    (v.saveFile f).KeptUntil id time := by
  obtain ⟨f₀, hf₀, hkept⟩ := h
  by_cases hid : id = f.fileId
  · subst hid
    exact ⟨f, Inventory.get?_saveFile_self .., later f₀ hf₀ hkept⟩
  · exact ⟨f₀, (Inventory.get?_saveFile_of_ne _ hid).trans hf₀, hkept⟩

theorem fileChange (h : s.inventory.KeptUntil id time) (c : FileChange s s')
    (spared : ∀ f, Evicts s s' f → f.fileId ≠ id) : s'.inventory.KeptUntil id time := by
  cases c with
  | evict e =>
    cases e with
    | aside a => cases a; exact h
    | @evicted f disk kept unlocked free unpinned =>
      obtain ⟨f₀, hf₀, hkept⟩ := h
      have hne := spared f ⟨kept, unlocked, unpinned, rfl, rfl⟩
      exact ⟨f₀, (Inventory.get?_deleteFile_of_ne _ hne.symm).trans hf₀, hkept⟩
  | attached | strayed => exact h
  | detached id' r absent => exact h.of_files (Inventory.files_removeReference ..)
  | queued time' grounded wanted room =>
    refine h.saveFile fun f₀ hf₀ hkept => ?_
    rw [(wanted.kept f₀ hf₀).2.2]
    exact hkept
  | @unlocked f grounded wanted kept locked =>
    -- The record that is kept has no unlock time either.
    refine h.saveFile fun f₀ hf₀ hkept => ?_
    have hlocked : f₀.unlockAt = none := by
      rw [(wanted.kept f₀ hf₀).2.2] at locked
      exact locked
    obtain ⟨u, hu, -⟩ := hkept
    rw [hlocked] at hu
    cases hu
  | extended time' kept there grounded =>
    refine h.saveFile fun f₀ hf₀ hkept => ?_
    obtain rfl := Option.some.inj (kept.symm.trans hf₀)
    exact hkept.extendUnlock time'

theorem transferChange (h : s.inventory.KeptUntil id time) (hb : s.Balanced) (c : TransferChange s s') :
    s'.inventory.KeptUntil id time := by
  cases c with
  | moved | brokenOff => exact h
  | arrived d place tasks rest =>
    refine h.saveFile fun f₀ hf₀ hkept => ?_
    obtain rfl := Option.some.inj ((hb.kept _ (rest.mem_iff.2 (.head _))).symm.trans hf₀)
    exact FileRecord.KeptUntil.extendUnlock hkept _
  | givenUp e tasks rest =>
    refine h.saveFile fun f₀ hf₀ hkept => ?_
    obtain rfl := Option.some.inj ((hb.kept _ (rest.mem_iff.2 (.head _))).symm.trans hf₀)
    exact FileRecord.KeptUntil.extendUnlock hkept _
  | setBack e tasks others rest =>
    refine h.saveFile fun f₀ hf₀ hkept => ?_
    obtain rfl := Option.some.inj ((hb.kept _ (rest.mem_iff.2 (.head _))).symm.trans hf₀)
    exact hkept

/-- **No deed lets a file go earlier** than it was to be let go, unless it evicts it. -/
theorem deed (h : s.inventory.KeptUntil id time) (hb : s.Balanced) (d : Deed s s')
    (spared : ∀ f, Evicts s s' f → f.fileId ≠ id) : s'.inventory.KeptUntil id time := by
  cases d with
  | change c =>
    cases c with
    | file c => exact h.fileChange c spared
    | transfer c => exact h.transferChange hb c
    | job c =>
      obtain ⟨_, _, _, e⟩ := c.enters
      exact h.of_files (by rw [e.written]; rfl)
    | warned | told | clocked | duties | spoiled => exact h
  | founding r c => exact h.of_files (c.frame hb.named).files

end Inventory.KeptUntil

/-- **A file stays kept** from one site to another until a time: it was not evicted meanwhile and may not be
evicted before the time, or the first of its records to be evicted was one that might not go earlier. -/
def StaysKept (id : FileId) (time : Instant) (s s' : Site) : Prop :=
  ∃ news, s'.log = s.log ++ news ∧
    ((∀ h ∈ news, h.evicts id = false) ∧ s'.inventory.KeptUntil id time ∨
      ∃ early f moment left late, news = early ++ .evicted f moment left :: late ∧
        (∀ h ∈ early, h.evicts id = false) ∧ f.fileId = id ∧ f.KeptUntil time)

namespace StaysKept

variable {time : Instant} {s'' : Site}

theorem refl (h : s.inventory.KeptUntil id time) : StaysKept id time s s :=
  ⟨[], (List.append_nil _).symm, .inl ⟨fun _ hh => (by cases hh), h⟩⟩

theorem deed (h : StaysKept id time s s') (hb : s'.Balanced) (d : Deed s' s'') :
    StaysKept id time s s'' := by
  obtain ⟨news, hnews, ⟨hspared, hkept⟩ | ⟨early, f, moment, left, late, rfl, hgone⟩⟩ := h
  · rcases d.evicts_or_quiet with ⟨f, e⟩ | ⟨more, hmore, hquiet⟩
    · have hlog := e.logged
      rw [hnews, List.append_assoc] at hlog
      by_cases hid : f.fileId = id
      · subst hid
        exact ⟨_, hlog, .inr ⟨news, f, _, _, [], rfl, hspared, rfl, (e.lt_now hkept).1⟩⟩
      · refine ⟨_, hlog, .inl ⟨fun h hh => ?_, hkept.deed hb d fun f' e' => ?_⟩⟩
        · rcases List.mem_append.1 hh with hh | hh
          · exact hspared h hh
          · rw [List.mem_singleton.1 hh]
            exact Happening.evicts_evicted.2 hid
        · have hsame := List.append_cancel_left (e'.logged.symm.trans e.logged)
          cases hsame
          exact hid
    · refine ⟨news ++ more, by rw [hmore, hnews, List.append_assoc], .inl ⟨fun h hh => ?_, ?_⟩⟩
      · rcases List.mem_append.1 hh with hh | hh
        · exact hspared h hh
        · exact Happening.evicts_of_quiet (hquiet h hh) id
      · refine hkept.deed hb d fun f e => ?_
        have hsame := List.append_cancel_left (e.logged.symm.trans hmore)
        rw [← hsame] at hquiet
        have hnone := hquiet _ (.head _)
        cases hnone
  · obtain ⟨more, hmore⟩ := d.log_prefix
    refine ⟨early ++ .evicted f moment left :: (late ++ more), ?_,
      .inr ⟨early, f, moment, left, late ++ more, rfl, hgone⟩⟩
    rw [← hmore, hnews]
    simp only [List.append_assoc, List.cons_append]

theorem history (h : s.inventory.KeptUntil id time) (hb : s.Balanced) (c : History s s') :
    StaysKept id time s s' := by
  induction c with
  | refl => exact refl h
  | tail hc e ih =>
    cases e with
    | deed d => exact ih.deed (hb.history hc) d
    | reopened => exact ih

end StaysKept

/-! ### What is honoured -/

/-- A job has a file in its manifest, other than as a catalogue. -/
def Job.Lists (j : Job) (id : FileId) : Prop := ∃ e ∈ j.retrievable, e.fileId = id

/-- **Promises are honoured**: what is promised is kept for as long, and what was evicted was evicted after
all that was promised. -/
structure Site.Honours (s : Site) : Prop where
  kept : ∀ {id r expiry}, (r, expiry) ∈ promisesOf id s.log →
    ∃ j, s.inventory.jobs.get? r = some j ∧ (j.Lists id → s.inventory.KeptUntil id expiry)
  honoured : ∀ {before f moment left}, before ++ [.evicted f moment left] <+: s.log →
    ∀ {r expiry}, (r, expiry) ∈ promisesOf f.fileId before →
      ∃ j, left.jobs.get? r = some j ∧ (j.Lists f.fileId → expiry < moment)

/-- **Promises are made only** when a job becomes ready, and its files are kept for as long then. -/
theorem Deed.promised (d : Deed s s') (promised : (r, expiry) ∈ promisesOf id s'.log) :
    (r, expiry) ∈ promisesOf id s.log ∨
      ∃ j, s'.inventory.jobs.get? r = some j ∧ (j.Lists id → s'.inventory.KeptUntil id expiry) := by
  cases d with
  | change c =>
    rcases c.job_or_quiet with c | ⟨-, more, hmore, hquiet⟩
    · cases c with
      | @readied j expiry' kept preparing ends held =>
        rcases promised_of_snoc promised with heq | ⟨hold, -⟩
        · cases heq
          refine .inr ⟨_, Inventory.get?_saveJob_self .., ?_⟩
          rintro ⟨e, he, rfl⟩
          obtain ⟨-, f, u, hf, -, hu, hle⟩ := held e he
          exact ⟨f, hf, u, hu, hle⟩
        · exact .inl hold
      | administered | failed | expired | cancelled =>
        exact .inl ((promised_of_snoc promised).resolve_left nofun).1
    · rw [hmore] at promised
      exact .inl (promised_of_append promised fun h hh => hquiet h hh r)
  | founding q c =>
    cases c with
    | packaged => exact .inl ((promised_of_snoc promised).resolve_left nofun).1
    | created | overwritten => exact .inl promised

namespace Site.Honours

/-- What is promised is kept for as long. -/
theorem kept_deed (h : s.Honours) (hb : s.Balanced) (d : Deed s s')
    (promised : (r, expiry) ∈ promisesOf id s'.log) :
    ∃ j, s'.inventory.jobs.get? r = some j ∧ (j.Lists id → s'.inventory.KeptUntil id expiry) := by
  rcases d.promised promised with hold | hnew
  · obtain ⟨j, hj, hkept⟩ := h.kept hold
    obtain ⟨j', hj', hmanifest⟩ := d.keepsManifests hb.named r j hj
    refine ⟨j', hj', fun hlists => ?_⟩
    rw [Job.Lists, Job.retrievable, hmanifest] at hlists
    refine (hkept hlists).deed hb d fun f e => ?_
    rw [e.logged] at promised
    rcases promised_of_snoc promised with heq | ⟨-, hspared⟩
    · cases heq
    · exact Happening.evicts_evicted.1 hspared
  · exact hnew

/-- **Whatever happens**, promises are honoured. -/
theorem deed (h : s.Honours) (hb : s.Balanced) (d : Deed s s') : s'.Honours := by
  refine ⟨h.kept_deed hb d, fun {before f moment left} hbegins {r expiry} promised => ?_⟩
  rcases d.evicts_or_quiet with ⟨f', e⟩ | ⟨more, hmore, hquiet⟩
  · rw [e.logged, List.prefix_concat_iff] at hbegins
    rcases hbegins with heq | hbegins
    · obtain ⟨rfl, hlast⟩ := List.append_inj' heq rfl
      cases hlast
      obtain ⟨j, hj, hkept⟩ := h.kept promised
      exact ⟨j, hj, fun hlists => (e.lt_now (hkept hlists)).2⟩
    · exact h.honoured hbegins promised
  · rw [hmore] at hbegins
    exact h.honoured (prefix_of_quiet hbegins rfl hquiet) promised

theorem reopen (h : s.Honours) (settings : Settings) : (s.reopen settings).Honours := ⟨h.kept, h.honoured⟩

end Site.Honours

/-! ### Runs -/

/-- **A shared file outlives every promise.** In every run that begins with a depot just opened, with nothing
in it, whichever calls are refused, wherever the clock is set and however often the depot is opened again:
when a file is evicted, that is later than each time until which it is promised for a job that lists it,
whatever has become of the job. And the unlock time of a record never moves back: from any time on, whatever
comes next, the file stays kept until the unlock time that it has. -/
theorem shared_files_outlive_promises (h : s.Secluded) (ho : s.Opened) (fresh : s.inventory = .fresh)
    (silent : s.log = []) (steps more : List Step) :
    (∀ before f moment left, before ++ [.evicted f moment left] <+: (s.run steps).log →
      ∀ r expiry, (r, expiry) ∈ promisesOf f.fileId before →
        ∃ j, left.jobs.get? r = some j ∧ (j.Lists f.fileId → expiry < moment)) ∧
    ∀ id f u, (s.run steps).inventory.files.get? id = some f → f.unlockAt = some u →
      StaysKept id u (s.run steps) (s.run (steps ++ more)) := by
  have hsound : s.Sound := ⟨h, ho.balanced (fresh ▸ .fresh)⟩
  have hstart : s.Honours := by
    refine ⟨fun promised => ?_, fun hbegins => ?_⟩
    · rw [silent] at promised
      cases promised
    · rw [silent, List.prefix_nil] at hbegins
      exact absurd hbegins (List.append_ne_nil_of_right_ne_nil _ nofun)
  have hhonours : (s.run steps).Honours :=
    @Site.run_induction s Site.Honours (fun _ => True) (fun h d hp => hp.deed h.balanced d)
      (fun _ _ hp => hp.reopen _) hsound hstart steps fun _ _ => trivial
  have hrun := hsound.history (Site.run_history hsound steps)
  refine ⟨fun before f moment left hbegins r expiry => hhonours.honoured hbegins, ?_⟩
  intro id f u hf hu
  rw [Site.run_append]
  exact .history ⟨f, hf, u, hu, Int.le_refl _⟩ hrun.balanced (Site.run_history hrun more)

/-- A depot that keeps files no longer than they are promised. -/
def sharingSite : Site := Site.blank { cacheRoot := "cache", keepMs := 0 }

/-- A file is fetched for a job; when that has expired another takes the file over, and is cancelled. The
file is evicted as soon as it may be. -/
def sharedFileRun : List Step :=
  [.create ⟨"j"⟩ .web [⟨⟨"f"⟩, .spectrum, none, none⟩], .move 0, .move 0, .poll,
    .setClock { hand := 604800500 }, .poll, .create ⟨"k"⟩ .web [⟨⟨"f"⟩, .spectrum, none, none⟩], .cancelAll,
    .purge, .setClock { hand := 1209600501 }, .purge]

theorem promises_of_shared_file :
    ∃ before f moment left, before ++ [.evicted f moment left] <+: (sharingSite.run sharedFileRun).log ∧
      (promisesOf f.fileId before).map Prod.fst = [⟨"j"⟩, ⟨"k"⟩] ∧
      ∀ r expiry, (r, expiry) ∈ promisesOf f.fileId before →
        ∃ j, left.jobs.get? r = some j ∧ (j.Lists f.fileId → expiry < moment) := by
  have hpromised : (promisesOf ⟨"f"⟩ ((sharingSite.run sharedFileRun).log.take 8)).map Prod.fst =
      [⟨"j"⟩, ⟨"k"⟩] := by decide +kernel
  have hevicted : ((sharingSite.run sharedFileRun).log[8]?.bind Happening.eviction?).map
      (·.1.fileId) = some ⟨"f"⟩ := by decide +kernel
  obtain ⟨x, hx, hid⟩ := Option.map_eq_some_iff.1 hevicted
  obtain ⟨h, hh, hevicts⟩ := Option.bind_eq_some_iff.1 hx
  cases h with
  | evicted f moment left =>
    cases hevicts
    have hbegins : (sharingSite.run sharedFileRun).log.take 8 ++ [.evicted f moment left] <+:
        (sharingSite.run sharedFileRun).log := by
      rw [List.getElem?_eq_some_iff] at hh
      obtain ⟨hlt, hh⟩ := hh
      rw [← hh, List.take_append_getElem]
      exact List.take_prefix _ _
    have hoverlive := (shared_files_outlive_promises (s := sharingSite) (Site.secluded_blank _)
      (Site.opened_blank _) rfl rfl sharedFileRun []).1 _ _ _ _ hbegins
    exact ⟨_, f, moment, left, hbegins, hid ▸ hpromised, hoverlive⟩
  | _ => cases hevicts

end Depot
