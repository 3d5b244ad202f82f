import Depot.Proofs.Eviction
import Depot.Proofs.SingleFlight

/-!
# Recovery

A depot that is opened begins with its inventory and nothing else: what was on its way when it was closed is
still to come, and has no transfer. Then the files still to come are resumed, in the order of their names, each
with what room the ones before have left. Files that are there, or have failed, may be evicted for that, and so
may files that are still ahead; a file for which there is no room is unlocked, so that it can be evicted later.

What is in flight after that is what was dispatched; nothing is left that could have been, but for what was
turned away for want of room.

## Main statements

* `Site.Fate` — what has become of a file that was there, or had failed.
* `Site.Resumes.evict`, `Site.Resumes.dispatched`, `Site.Resumes.turnedAway` — what resuming a file keeps.
* `Transfers.leads_resumeAll_resumes` — and so resuming all of them.
* `recovery_dispatches_what_it_can` — a depot that is opened and resumes its files.
-/

namespace Depot

open Act Time

variable {s₀ s s' : Site} {f : FileRecord} {rest : List FileRecord} {n : Nat}

/-! ### What is in flight -/

/-- **The records on their way** are those that are kept of the files in flight. -/
theorem Site.Calm.carried_perm (h : s.Calm) (hb : s.Balanced) :
    s.carried.Perm (s.inventory.files.values.filter fun f => s.inFlight.contains f.fileId) := by
  have hvalues : s.inventory.files.values.Nodup :=
    List.Nodup.of_map FileRecord.fileId (hb.named.map_fileId ▸ Table.nodup_keys _)
  refine (List.perm_ext_iff_of_nodup hb.nodup.of_map (hvalues.filter _)).2 fun f => ?_
  rw [List.mem_filter, Table.mem_values]
  constructor
  · exact fun hf => ⟨⟨f.fileId, hb.kept f hf⟩, hb.flying f hf⟩
  · rintro ⟨⟨id, hid⟩, hflying⟩
    obtain rfl := hb.named.files id f hid
    obtain ⟨g, hg, hname⟩ := h.flights _ hflying
    have hkept := hb.kept g hg
    rw [hname, hid] at hkept
    exact Option.some.inj hkept ▸ hg

/-! ### Files that are not still to come -/

/-- **What has become of a file** by a later time: it is kept as it was, with the references to it, or it was
evicted in the meantime, and could have been in the beginning. -/
inductive Site.Fate (s₀ : Site) (f : FileRecord) (s : Site) : Prop
  | kept (record : s.inventory.files.get? f.fileId = some f)
      (references : s.inventory.references.get? f.fileId = s₀.inventory.references.get? f.fileId)
  | evicted (gone : s.inventory.files.get? f.fileId = none) (earlier later : List Happening)
      (left : Inventory) (log : s.log = s₀.log ++ earlier ++ .evicted f s₀.clock.now left :: later)
      (mayGo : s₀.MayGo f)

theorem Site.Fate.of_same (h : s₀.Fate f s)
    (files : s'.inventory.files.get? f.fileId = s.inventory.files.get? f.fileId)
    (references : s'.inventory.references.get? f.fileId = s.inventory.references.get? f.fileId)
    (log : s.log <+: s'.log) : s₀.Fate f s' := by
  cases h with
  | kept record same => exact .kept (files.trans record) (references.trans same)
  | evicted gone earlier later left hlog mayGo =>
    obtain ⟨more, hmore⟩ := log
    refine .evicted (files.trans gone) earlier (later ++ more) left ?_ mayGo
    rw [← hmore, hlog, List.append_assoc, List.cons_append]

/-- **A file that is evicted could have been in the beginning**, as long as the clock, the jobs and the references to
it are the same and nothing was reserved then. -/
theorem Site.Fate.evict (h : s₀.Fate f s) (kept₀ : s₀.inventory.files.get? f.fileId = some f)
    (unreserved : ∀ id, s₀.account.isReserved id = false) (jobs : s.inventory.jobs = s₀.inventory.jobs)
    (clock : s.clock = s₀.clock) (log : s₀.log <+: s.log) (e : Evict s s') : s₀.Fate f s' := by
  cases e with
  | aside a => cases a; exact h.of_same rfl rfl List.prefix_rfl
  | @evicted g disk kept unlocked free unpinned =>
    by_cases hid : f.fileId = g.fileId
    · cases h with
      | evicted gone =>
        rw [hid, kept] at gone
        cases gone
      | kept record same =>
        rw [hid, kept] at record
        obtain rfl := Option.some.inj record
        obtain ⟨earlier, hearlier⟩ := log
        refine .evicted ((Inventory.get?_deleteFile ..).trans (if_pos rfl)) earlier []
          (s.inventory.deleteFile g.fileId) ?_
          ⟨kept₀, clock ▸ unlocked, unreserved _, fun r j hrefers hj => ?_⟩
        · rw [← hearlier, clock]
        · have hrefers' : s.inventory.refers g.fileId r = true := by
            rw [Inventory.refers, same]
            exact hrefers
          exact unpinned r ((Inventory.mem_referrers _).2 hrefers') j (jobs ▸ hj)
    · exact h.of_same (Inventory.get?_deleteFile_of_ne _ hid) ((Table.get?_erase ..).trans (if_neg hid))
        (List.prefix_append ..)

/-! ### Resuming -/

/-- **Files are being resumed** since a depot was opened: so many transfers are queued, and the files of a list
are still ahead. -/
structure Site.Resumes (s₀ : Site) (rest : List FileRecord) (n : Nat) (s : Site) : Prop where
  jobs : s.inventory.jobs = s₀.inventory.jobs
  clock : s.clock = s₀.clock
  log : s₀.log <+: s.log
  lists : Transfers.ListsPending s rest
  ahead : ∀ f ∈ rest, f ∈ s₀.inventory.pendingFiles
  count : s.carried.length = n
  retrievable : ∀ f ∈ s.carried, f.kind.isCatalogue = false
  /-- A file still to come is in flight, may be evicted some time, or is still ahead. -/
  dealtWith : ∀ f, s.inventory.files.get? f.fileId = some f → f.isPending = true →
    f.kind.isCatalogue = false → s.inFlight.contains f.fileId = true ∨ f.unlockAt ≠ none ∨ f ∈ rest
  settled : ∀ f, s₀.inventory.files.get? f.fileId = some f → f.isPending = false → s₀.Fate f s

namespace Site.Resumes

/-- Where files have not yet been resumed. -/
theorem start (hn : s.inventory.Named) (idle : s.carried = []) :
    s.Resumes s.inventory.pendingFiles 0 s where
  jobs := rfl
  clock := rfl
  log := List.prefix_rfl
  lists := Transfers.listsPending_pendingFiles hn
  ahead _ hf := hf
  count := by rw [idle]; rfl
  retrievable f hf := by rw [idle] at hf; cases hf
  dealtWith f hf hpending _ := .inr (.inr (List.mem_filter.2 ⟨Table.mem_values.2 ⟨_, hf⟩, hpending⟩))
  settled _ hf _ := .kept hf rfl

/-- **An eviction** may take files that are still ahead. -/
theorem evict (h : s₀.Resumes rest n s) (unreserved : ∀ id, s₀.account.isReserved id = false)
    (e : Evict s s') : s₀.Resumes rest n s' := by
  have hframe := Evictions.frame (.single e)
  have hkept : ∀ {id f}, s'.inventory.files.get? id = some f → s.inventory.files.get? id = some f :=
    Evictions.get?_of_get? (.single e)
  have hcarried : s'.carried = s.carried := congrArg recordsOf hframe.tasks
  have hlog : s.log <+: s'.log := by
    cases e with
    | aside a => cases a; exact List.prefix_rfl
    | evicted => exact List.prefix_append ..
  refine ⟨hframe.jobs.trans h.jobs, hframe.clock.trans h.clock, h.log.trans hlog, ?_, h.ahead, ?_, ?_,
    fun f hf => ?_, fun f hf hs => ?_⟩
  · exact ⟨h.lists.nodup, h.lists.pending, fun f hf f₀ hf₀ => h.lists.kept f hf f₀ (hkept hf₀)⟩
  · rw [hcarried]
    exact h.count
  · rw [hcarried]
    exact h.retrievable
  · rw [hframe.inFlight]
    exact h.dealtWith f (hkept hf)
  · exact (h.settled f hf hs).evict hf unreserved h.jobs h.clock h.log e

theorem evictions (h : s₀.Resumes rest n s) (unreserved : ∀ id, s₀.account.isReserved id = false)
    (e : Evictions s s') : s₀.Resumes rest n s' := by
  induction e with
  | refl => exact h
  | tail _ e ih => exact ih.evict unreserved e

/-- A file that is ahead is none that was there or had failed. -/
theorem ne_of_settled (h : s₀.Resumes (f :: rest) n s) (hn : s₀.inventory.Named) {g : FileRecord}
    (kept : s₀.inventory.files.get? g.fileId = some g) (settled : g.isPending = false) :
    g.fileId ≠ f.fileId := by
  intro hid
  obtain ⟨hvalue, hpending⟩ := List.mem_filter.1 (h.ahead f (.head _))
  obtain ⟨id, hf⟩ := Table.mem_values.1 hvalue
  obtain rfl := hn.files id f hf
  rw [hid, hf] at kept
  obtain rfl := Option.some.inj kept
  rw [hpending] at settled
  cases settled

/-- The next file is dealt with where a record of it, if it is kept, is in flight or may be evicted some time. -/
theorem pass (h : s₀.Resumes (f :: rest) n s)
    (done : s.inventory.files.get? f.fileId = some f → f.kind.isCatalogue = false →
      s.inFlight.contains f.fileId = true ∨ f.unlockAt ≠ none) : s₀.Resumes rest n s where
  jobs := h.jobs
  clock := h.clock
  log := h.log
  lists := h.lists.tail fun _ _ _ hf => hf
  ahead g hg := h.ahead g (.tail _ hg)
  count := h.count
  retrievable := h.retrievable
  dealtWith g hg hpending hkind := by
    rcases h.dealtWith g hg hpending hkind with hflying | hunlocked | hahead
    · exact .inl hflying
    · exact .inr (.inl hunlocked)
    · rcases List.mem_cons.1 hahead with rfl | hahead
      · exact (done hg hkind).imp_right .inl
      · exact .inr (.inr hahead)
  settled := h.settled

/-- The next file is dealt with where a record of it is kept that is in flight or may be evicted some time. -/
theorem saves {m : Nat} {g : FileRecord} (h : s₀.Resumes (f :: rest) n s) (hn : s₀.inventory.Named)
    (name : g.fileId = f.fileId) (inventory : s'.inventory = s.inventory.saveFile g)
    (clock : s'.clock = s.clock) (log : s.log <+: s'.log)
    (flying : ∀ id, s.inFlight.contains id = true → s'.inFlight.contains id = true)
    (done : s'.inFlight.contains g.fileId = true ∨ g.unlockAt ≠ none) (count : s'.carried.length = m)
    (retrievable : ∀ f ∈ s'.carried, f.kind.isCatalogue = false) : s₀.Resumes rest m s' where
  jobs := by rw [inventory]; exact h.jobs
  clock := clock.trans h.clock
  log := h.log.trans log
  lists := h.lists.tail (inventory ▸ .saveFile (fun _ _ _ hf => hf) name)
  ahead g hg := h.ahead g (.tail _ hg)
  count := count
  retrievable := retrievable
  dealtWith f' hf' hpending hkind := by
    rw [inventory, Inventory.get?_saveFile] at hf'
    split at hf'
    · obtain rfl := Option.some.inj hf'
      exact done.imp_right .inl
    next hid =>
    rcases h.dealtWith f' hf' hpending hkind with hflying | hunlocked | hahead
    · exact .inl (flying _ hflying)
    · exact .inr (.inl hunlocked)
    · exact .inr (.inr ((List.mem_cons.1 hahead).resolve_left fun heq => hid (heq ▸ name.symm)))
  settled f' hf' hs := by
    have hne : f'.fileId ≠ g.fileId := name ▸ h.ne_of_settled hn hf' hs
    refine (h.settled f' hf' hs).of_same ?_ ?_ log
    · rw [inventory, Inventory.get?_saveFile_of_ne _ hne]
    · rw [inventory]
      rfl

/-- **The next file is dispatched.** -/
theorem dispatched (h : s₀.Resumes (f :: rest) n s) (hn : s₀.inventory.Named)
    (unreserved : ∀ id, s₀.account.isReserved id = false) (retrievable : f.kind.isCatalogue = false)
    (c : Transfers.Dispatched f s s') : s₀.Resumes rest (n + 1) s' := by
  cases c with
  | @intro t account evictions =>
  have ht := h.evictions unreserved evictions
  have hcarried : recordsOf (t.tasks ++ [.transfer ⟨f, .resting t.clock.elapsed⟩]) = t.carried ++ [f] :=
    recordsOf_append ..
  refine ht.saves hn rfl rfl rfl (List.prefix_append ..) (fun id hid => (KeySet.contains_add ..).2 (.inr hid))
    (.inl ((KeySet.contains_add ..).2 (.inl rfl))) ?_ fun g hg => ?_
  · rw [Site.carried, hcarried, List.length_append, ht.count]
    rfl
  · rw [Site.carried, hcarried] at hg
    rcases List.mem_append.1 hg with hg | hg
    · exact ht.retrievable g hg
    · rw [List.mem_singleton.1 hg]
      exact retrievable

/-- **The next file is turned away.** -/
theorem turnedAway (h : s₀.Resumes (f :: rest) n s) (hn : s₀.inventory.Named)
    (unreserved : ∀ id, s₀.account.isReserved id = false) (c : Transfers.TurnedAway f s s') :
    s₀.Resumes rest n s' := by
  cases c with
  | left evictions unlocked =>
    refine (h.evictions unreserved evictions).pass fun hkept _ => .inr fun hlocked => ?_
    rw [unlocked hlocked] at hkept
    cases hkept
  | @unlocked t evictions =>
    have ht := h.evictions unreserved evictions
    exact ht.saves (g := { f with unlockAt := some t.clock.now }) hn rfl rfl rfl List.prefix_rfl
      (fun _ hid => hid) (.inr (Option.some_ne_none _)) ht.count ht.retrievable

end Site.Resumes

namespace Transfers

/-- **Resuming the files of a list**, as many as are dispatched. -/
theorem leads_resumeAll_resumes (hn : s₀.inventory.Named)
    (unreserved : ∀ id, s₀.account.isReserved id = false) : ∀ (l : List FileRecord) (n : Nat) {s : Site},
    s.Sound → s.Calm → s₀.Resumes l n s → Leads (resumeAll l) (fun _ _ => False)
      (fun m s' => s'.Sound ∧ s'.Calm ∧ s₀.Resumes [] (n + m) s') s
  | [], n, s, sound, calm, h => by
    rw [resumeAll, leads_pure]
    exact ⟨sound, calm, h⟩
  | f :: rest, n, s, sound, calm, h => by
    simp only [resumeAll, leads_bind, leads_get]
    refine leads_ite.2 ⟨fun hpassed => ?_, fun hgrounded => ?_⟩
    · refine leads_resumeAll_resumes hn unreserved rest n sound calm (h.pass fun _ hkind => ?_)
      rw [hkind, Bool.false_or] at hpassed
      exact .inl hpassed
    rw [Bool.or_eq_false_iff] at hgrounded
    have hcourse := (Errand.fileCourse_of_resumed sound (h.lists.pending f (.head _)) hgrounded.2
      (h.lists.kept f (.head _))).course
    have hqueue := leads_queue_of_quiet ⟨sound.secluded, calm.faultless⟩ sound.balanced.named hgrounded.2
    have hnext := fun m => leads_resumeAll_resumes hn unreserved rest m (sound.course hcourse)
      (calm.course hcourse)
    simp only [enterFlight, leads_bind, leads_modify, leads_attempt]
    refine (hqueue.and (leads_answer (queue f) _)).mono ?_ ?_
    · rintro e s₁ ⟨⟨-, c⟩, -, rfl⟩
      exact hnext n (h.turnedAway hn unreserved c)
    · rintro _ s₁ ⟨c, -, rfl⟩
      simp only [leads_pure]
      refine (hnext (n + 1) (h.dispatched hn unreserved hgrounded.1 c)).mono (fun _ _ hfalse => hfalse) ?_
      rintro m s' ⟨sound', calm', h'⟩
      exact ⟨sound', calm', by rwa [Nat.add_assoc, Nat.add_comm 1] at h'⟩

end Transfers

/-! ### Opening and resuming -/

/-- Begin anew over the inventory, and resume the files still to come; how many could be. -/
def Opening.recover : Act Nat := do
  begin
  Transfers.resumePending

/-- A depot begins anew where no call is refused. -/
theorem Opening.leads_begin_of_quiet (h : s.Quiet) {E : Failure → Site → Prop} {Q : Unit → Site → Prop} :
    Leads begin E Q s ↔ Q () (s.reopen s.settings) := by
  rw [begin, leads_bind, Records.sumAvailable, Records.leads_read_of_quiet h, leads_modify]
  rfl

/-- A depot that has been opened again has just been opened. -/
theorem Site.opened_reopen (s : Site) (settings : Settings) : (s.reopen settings).Opened := ⟨rfl, rfl, rfl⟩

/-- **Where a depot is opened and resumes its files**, each of those is dealt with. -/
theorem Opening.leads_recover (h : s.Secluded) (faultless : s.Faultless) (hn : s.inventory.Named) :
    Leads recover (fun _ _ => False)
      (fun n s' => s'.Sound ∧ s'.Calm ∧ (s.reopen s.settings).Resumes [] n s') s := by
  have hquiet : s.Quiet := ⟨h, faultless⟩
  have hopened := s.opened_reopen s.settings
  have hquiet₀ : (s.reopen s.settings).Quiet := hquiet.of_same rfl rfl rfl
  have hn₀ : (s.reopen s.settings).inventory.Named := hn
  rw [recover, leads_bind, leads_begin_of_quiet hquiet, Transfers.resumePending, leads_bind,
    Records.findPending, Records.leads_read_of_quiet hquiet₀]
  have hstart : (s.reopen s.settings).Resumes _ 0 (s.reopen s.settings) := .start hn rfl
  refine (Transfers.leads_resumeAll_resumes hn₀ (fun _ => rfl) _ 0
    ⟨hquiet₀.toSecluded, hopened.balanced hn₀⟩ (hopened.calm hquiet₀.faultless) hstart).mono
    (fun _ _ hfalse => hfalse) fun n s' hs' => ?_
  rwa [Nat.zero_add] at hs'

/-- **Recovery dispatches all that it can.** In every depot whose records are kept under their names, with any
settings and whatever was going on in it: where no call is refused and it is opened and resumes its files, that
succeeds, and afterwards

* what is taken up is the room of the files that are there, and the estimates of those in flight;
* as many files are in flight as could be resumed;
* a record still to come is of a catalogue, in flight, or may be evicted some time;
* what is in flight has a record, which is still to come and of no catalogue;
* a record of a file that was there or had failed is as it was, or the file was evicted in the meantime, its
  unlock time having passed, without a reservation, and no live job referring to it. -/
theorem recovery_dispatches_what_it_can (h : s.Secluded) (faultless : s.Faultless)
    (hn : s.inventory.Named) :
    ∃ n, Opening.recover.answer s = .ok n ∧ ∀ s', Opening.recover.after s = s' →
      s'.account.used = s'.inventory.availableKb +
        ((s'.inventory.files.values.filter fun f => s'.inFlight.contains f.fileId).map fun f =>
          f.estimatedKb.toNat).sum ∧
      n = s'.inFlight.size ∧
      (∀ id f, s'.inventory.files.get? id = some f → f.available = false → f.failed = false →
        f.kind.isCatalogue = false → s'.inFlight.contains id = true ∨ f.unlockAt ≠ none) ∧
      (∀ id, s'.inFlight.contains id = true → ∃ f, s'.inventory.files.get? id = some f ∧
        f.available = false ∧ f.failed = false ∧ f.kind.isCatalogue = false) ∧
      ∀ id f, s.inventory.files.get? id = some f → f.available = true ∨ f.failed = true →
        s'.inventory.files.get? id = some f ∨
        s'.inventory.files.get? id = none ∧ (s.reopen s.settings).MayGo f ∧ ∃ earlier left later,
          s'.log = s.log ++ earlier ++ .evicted f (s.reopen s.settings).clock.now left :: later := by
  obtain ⟨n, hok, sound, calm, hresumed⟩ := (Opening.leads_recover h faultless hn).exists_ok
  have hb := sound.balanced
  have hpending : ∀ f : FileRecord, f.isPending = true ↔ f.available = false ∧ f.failed = false := by
    simp [FileRecord.isPending]
  refine ⟨n, hok, ?_⟩
  rintro s' rfl
  refine ⟨?_, ?_, fun id f hf hthere hfailed hkind => ?_, fun id hid => ?_, fun id f hf hsettled => ?_⟩
  · rw [hb.used_eq, (((calm.carried_perm hb).map _).sum_nat)]
  · rw [← hresumed.count, calm.size_inFlight hb, Site.carried_eq, List.length_map]
  · obtain rfl := hb.named.files id f hf
    rcases hresumed.dealtWith f hf ((hpending f).2 ⟨hthere, hfailed⟩) hkind with hflying | hunlocked | hahead
    · exact .inl hflying
    · exact .inr hunlocked
    · cases hahead
  · obtain ⟨f, hf, rfl⟩ := calm.flights id hid
    obtain ⟨hthere, hfailed⟩ := (hpending f).1 (hb.pending f hf)
    exact ⟨f, hb.kept f hf, hthere, hfailed, hresumed.retrievable f hf⟩
  · obtain rfl := hn.files id f hf
    have hnot : f.isPending = false := by
      rw [← Bool.not_eq_true, hpending]
      rintro ⟨hthere, hfailed⟩
      rw [hthere, hfailed] at hsettled
      rcases hsettled with hsettled | hsettled <;> cases hsettled
    cases hresumed.settled f hf hnot with
    | kept record => exact .inl record
    | evicted gone earlier later left log mayGo =>
      exact .inr ⟨gone, mayGo, earlier, left, later, log⟩

/-- A file of 70 KB that is there and may be evicted. -/
def spareFile : FileRecord :=
  { FileRecord.ofEntry ⟨⟨"a"⟩, .spectrum, none, none⟩ 0 with
    sizeKb := some 70, available := true, unlockAt := some .epoch }

/-- A depot with a limit of 100 KB, a second into 1970, that was closed while two files of 60 KB and 50 KB were on
their way. A file is there that may be evicted, and a catalogue is still to come. -/
def closedSite : Site where
  settings := { cacheRoot := "cache", limitKb := 100 }
  clock := { hand := 1000 }
  account := { committed := 7 }
  inventory :=
    (((Inventory.fresh.saveFile spareFile).saveFile
      (.ofEntry ⟨⟨"c"⟩, .catalogue, none, none⟩ 10)).saveFile
      (.ofEntry ⟨⟨"f"⟩, .spectrum, none, none⟩ 60)).saveFile
      (.ofEntry ⟨⟨"g"⟩, .spectrum, none, none⟩ 50)

/-- One of the two files is dispatched, for which the file that is there has gone; the other is unlocked. -/
theorem recovery_of_closedSite :
    let s' := Opening.recover.after closedSite
    Opening.recover.answer closedSite = .ok 1 ∧ s'.inFlight.keys = [⟨"f"⟩] ∧ s'.account.used = 60 ∧
      s'.inventory.files.keys = [⟨"c"⟩, ⟨"f"⟩, ⟨"g"⟩] ∧
      (s'.inventory.files.get? ⟨"g"⟩).any (fun g => g.unlockAt ≠ none) = true ∧
      (closedSite.reopen closedSite.settings).MayGo spareFile := by
  intro s'
  obtain ⟨n, hok, hrecovered⟩ := recovery_dispatches_what_it_can (s := closedSite)
    ⟨rfl, rfl, rfl, rfl, rfl⟩ (fun _ => rfl)
    ((((Inventory.Named.fresh.saveFile _).saveFile _).saveFile _).saveFile _)
  obtain ⟨hused, hcount, hpending, -, hsettled⟩ := hrecovered s' rfl
  have hflying : s'.inFlight.keys = [⟨"f"⟩] := by decide +kernel
  have hone : n = 1 := by
    rw [hcount, ← Table.length_keys, hflying]
    rfl
  refine ⟨hone ▸ hok, hflying, hused.trans (by decide +kernel), by decide +kernel, ?_, ?_⟩
  · have hturnedAway : (s'.inventory.files.get? ⟨"g"⟩).any (fun g =>
        !g.available && !g.failed && !g.kind.isCatalogue) = true ∧
        s'.inFlight.contains ⟨"g"⟩ = false := by decide +kernel
    obtain ⟨g, hg, hrecord⟩ := (Option.any_eq_true ..).1 hturnedAway.1
    simp only [Bool.and_eq_true, Bool.not_eq_true'] at hrecord
    have hunlocked := (hpending _ g hg hrecord.1.1 hrecord.1.2 hrecord.2).resolve_left
      (ne_true_of_eq_false hturnedAway.2)
    exact (Option.any_eq_true ..).2 ⟨g, hg, decide_eq_true hunlocked⟩
  · have hgone : s'.inventory.files.get? ⟨"a"⟩ ≠ some spareFile := by decide +kernel
    exact ((hsettled ⟨"a"⟩ spareFile (by decide +kernel) (.inl rfl)).resolve_left hgone).2.1

end Depot
