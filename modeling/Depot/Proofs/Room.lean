import Depot.Proofs.Balance
import Depot.Proofs.Records

/-!
# Making room

Evictions are taken apart into single ones. The list of files to be evicted is read before the first of
them goes; it stays true while they go, for each of them is on it once and an eviction drops no other.

## Main statements

* `Room.leads_evict` — an eviction of many files, stopped anywhere, is a course of single evictions.
* `Room.leads_reserve` — a file without a reservation is given one after such a course, and only if there
  is room; otherwise the course is all that has happened.
-/

namespace Depot

open Act Time

variable {s s' : Site}

/-! ### What was evicted -/

/-- A file that was evicted, and the inventory that was left. -/
def Happening.eviction? : Happening → Option (FileRecord × Inventory)
  | .evicted f _ left => some (f, left)
  | _ => none

/-- The evictions so far. -/
def Site.evictions (s : Site) : List (FileRecord × Inventory) :=
  s.log.filterMap Happening.eviction?

/-- Where something else is logged nothing is evicted. -/
theorem Site.evictions_of_log {h : Happening} (log : s'.log = s.log ++ [h]) (quiet : h.eviction? = none) :
    s'.evictions = s.evictions := by
  rw [Site.evictions, log, List.filterMap_append, List.filterMap_cons_none quiet, Site.evictions]
  exact List.append_nil _

/-- Whatever was evicted from one site to the next, it was not this file. -/
def Spared (id : FileId) (s s' : Site) : Prop :=
  ∃ more, s'.evictions = s.evictions ++ more ∧ ∀ x ∈ more, x.1.fileId ≠ id

namespace Spared

variable {id : FileId}

theorem of_eq (h : s'.evictions = s.evictions) : Spared id s s' :=
  ⟨[], by rw [h, List.append_nil], fun x hx => by cases hx⟩

theorem trans {s'' : Site} (h : Spared id s s') (h' : Spared id s' s'') : Spared id s s'' := by
  obtain ⟨more, hmore, hspared⟩ := h
  obtain ⟨more', hmore', hspared'⟩ := h'
  refine ⟨more ++ more', by rw [hmore', hmore, List.append_assoc], fun x hx => ?_⟩
  rcases List.mem_append.1 hx with hx | hx
  · exact hspared x hx
  · exact hspared' x hx

/-- An eviction of another file. -/
theorem of_evicted {f : FileRecord} {time : Instant} {left : Inventory}
    (log : s'.log = s.log ++ [.evicted f time left]) (ne : f.fileId ≠ id) : Spared id s s' := by
  refine ⟨[(f, left)], ?_, fun x hx => ?_⟩
  · rw [Site.evictions, log, List.filterMap_append]
    rfl
  · rw [List.mem_singleton.1 hx]
    exact ne

end Spared

/-! ### Courses of evictions -/

/-- A course of evictions. -/
abbrev Evictions : Site → Site → Prop := Relation.ReflTransGen Evict

theorem Aside.evictions (h : Aside s s') : Evictions s s' := .single (.aside h)

namespace Evictions

/-! ### What evictions leave alone -/

/-- What evictions leave alone. -/
structure Frame (s s' : Site) : Prop where
  jobs : s'.inventory.jobs = s.inventory.jobs
  settings : s'.settings = s.settings
  clock : s'.clock = s.clock
  reservations : s'.account.reservations = s.account.reservations
  inFlight : s'.inFlight = s.inFlight
  tasks : s'.tasks = s.tasks
  packager : s'.packager = s.packager

theorem frame (h : Evictions s s') : Frame s s' := by
  induction h with
  | refl => exact ⟨rfl, rfl, rfl, rfl, rfl, rfl, rfl⟩
  | tail _ e ih =>
    obtain ⟨h₁, h₂, h₃, h₄, h₅, h₆, h₇⟩ := ih
    cases e with
    | aside a => cases a; exact ⟨h₁, h₂, h₃, h₄, h₅, h₆, h₇⟩
    | evicted => exact ⟨h₁, h₂, h₃, h₄, h₅, h₆, h₇⟩

theorem course (h : Evictions s s') : Course s s' :=
  Relation.ReflTransGen.mono (fun _ _ e => .file (.evict e)) _ _ h

theorem secluded (h : Evictions s s') (hs : s.Secluded) : s'.Secluded := h.course.secluded hs

theorem refused {e : Failure} (h : Evictions s s') (hr : s'.Refused e) : s.Refused e :=
  h.course.refused hr

/-- Evictions only drop records. -/
theorem get?_of_get? (h : Evictions s s') {id : FileId} {f : FileRecord}
    (hf : s'.inventory.files.get? id = some f) : s.inventory.files.get? id = some f := by
  induction h with
  | refl => exact hf
  | tail _ e ih =>
    refine ih ?_
    cases e with
    | aside a => cases a; exact hf
    | evicted =>
      dsimp only at hf
      rw [Inventory.get?_deleteFile] at hf
      split at hf
      · cases hf
      · exact hf

theorem get?_eq_none (h : Evictions s s') {id : FileId} (hf : s.inventory.files.get? id = none) :
    s'.inventory.files.get? id = none := by
  cases hg : s'.inventory.files.get? id with
  | none => rfl
  | some f => rw [h.get?_of_get? hg] at hf; cases hf

/-- A record that was wanted is wanted after evictions. -/
theorem wants (h : Evictions s s') {f : FileRecord} (hf : s.inventory.Wants f) :
    s'.inventory.Wants f :=
  ⟨hf.pending, fun f₀ h₀ => hf.kept f₀ (h.get?_of_get? h₀)⟩

/-- Evictions do not look at what is in flight. -/
theorem grounded {inFlight : KeySet FileId} (h : Evictions { s with inFlight := inFlight } s') :
    ∃ t, Evictions s t ∧ s' = { t with inFlight := inFlight } := by
  induction h with
  | refl => exact ⟨s, .refl, rfl⟩
  | tail _ e ih =>
    obtain ⟨t, ht, rfl⟩ := ih
    cases e with
    | aside a =>
      obtain ⟨faults, disk, supply, goOn⟩ := a
      exact ⟨_, ht.tail (.aside (.intro (s := t) faults disk supply goOn)), rfl⟩
    | evicted disk kept unlocked free unpinned =>
      exact ⟨_, ht.tail (.evicted (s := t) disk kept unlocked free unpinned), rfl⟩

end Evictions

/-! ### What may be evicted -/

theorem Table.nodup_keys {κ α : Type} [Ord κ] [Std.TransOrd κ] [Std.LawfulEqOrd κ] (t : Table κ α) :
    t.keys.Nodup := by
  rw [List.nodup_iff_pairwise_ne, keys, List.pairwise_map]
  refine t.sorted.imp fun {a b} hab heq => ?_
  rw [heq] at hab
  simp at hab

/-- The records are listed under their names. -/
theorem Inventory.Named.map_fileId {v : Inventory} (h : v.Named) :
    v.files.values.map FileRecord.fileId = v.files.keys := by
  rw [Table.values, Table.keys, List.map_map]
  refine List.map_congr_left fun e he => ?_
  exact h.files e.1 e.2 ((Table.get?_eq_some_iff _ _ _).2 he)

/-- Files to be evicted: each is on the list once, is kept as it is listed, and is unlocked. -/
structure Site.Lists (s : Site) (l : List FileRecord) : Prop where
  nodup : (l.map FileRecord.fileId).Nodup
  kept : ∀ f ∈ l, s.inventory.files.get? f.fileId = some f
  unlocked : ∀ f ∈ l, ∃ u, f.unlockAt = some u ∧ u < s.clock.now

theorem Inventory.Named.lists_unlocked (h : s.inventory.Named) :
    s.Lists (s.inventory.unlockedBefore s.clock.now) := by
  refine ⟨?_, fun f hf => ?_, fun f hf => ?_⟩
  · refine ((sortBy_perm _).map _).nodup_iff.2 (List.Nodup.sublist (List.filter_sublist.map _) ?_)
    rw [h.map_fileId]
    exact Table.nodup_keys _
  · obtain ⟨id, hid⟩ := Table.mem_values.1 (Inventory.mem_unlockedBefore.1 hf).1
    rwa [h.files id f hid]
  · exact (Inventory.mem_unlockedBefore.1 hf).2

theorem Site.Lists.tail {f : FileRecord} {rest : List FileRecord} (h : s.Lists (f :: rest)) :
    s.Lists rest :=
  ⟨(List.nodup_cons.1 h.nodup).2, fun g hg => h.kept g (.tail _ hg),
    fun g hg => h.unlocked g (.tail _ hg)⟩

theorem Site.Lists.aside {l : List FileRecord} (h : s.Lists l) (a : Aside s s') : s'.Lists l := by
  cases a
  exact ⟨h.nodup, h.kept, h.unlocked⟩

/-- The other files on the list stay as they are listed. -/
theorem Site.Lists.deleteFile {f : FileRecord} {rest : List FileRecord} (h : s.Lists (f :: rest))
    (inventory : s'.inventory = s.inventory.deleteFile f.fileId) (clock : s'.clock = s.clock) :
    s'.Lists rest := by
  refine ⟨h.tail.nodup, fun g hg => ?_, fun g hg => ?_⟩
  · have hne : g.fileId ≠ f.fileId := fun heq =>
      (List.nodup_cons.1 h.nodup).1 (heq ▸ List.mem_map_of_mem hg)
    rw [inventory, Inventory.get?_deleteFile_of_ne _ hne]
    exact h.tail.kept g hg
  · rw [clock]
    exact h.tail.unlocked g hg

namespace Room

/-! ### Single evictions -/

theorem leads_anyLive : ∀ (rs : List RequestId) {s : Site}, s.Secluded →
    Leads (anyLive rs) (fun e s' => s.Refused e ∧ Aside s s')
      (fun live s' => Aside s s' ∧ (live = false →
        ∀ r ∈ rs, ∀ j, s.inventory.jobs.get? r = some j → j.status.isLive = false)) s
  | [], s, h => by
    rw [anyLive, leads_pure]
    exact ⟨.refl s, fun _ r hr => by cases hr⟩
  | r :: rest, s, h => by
    rw [anyLive, leads_bind]
    refine (Records.leads_loadJob h r).mono (fun e s₁ h => h) fun j s₁ ⟨hj, ha⟩ => ?_
    have hjobs : s₁.inventory.jobs = s.inventory.jobs := by cases ha; rfl
    have hrest : (∀ k, j = some k → k.status.isLive = false) →
        Leads (anyLive rest) (fun e s' => s.Refused e ∧ Aside s s')
          (fun live s' => Aside s s' ∧ (live = false →
            ∀ r' ∈ r :: rest, ∀ k, s.inventory.jobs.get? r' = some k → k.status.isLive = false))
          s₁ := by
      intro hdead
      refine (leads_anyLive rest (h.aside ha)).mono (fun e s₂ ⟨hr, ha'⟩ => ⟨hr.aside ha, ha.trans ha'⟩)
        fun live s₂ ⟨ha', hlive⟩ => ⟨ha.trans ha', fun hfalse r' hr' k hk => ?_⟩
      rcases List.mem_cons.1 hr' with rfl | hr'
      · exact hdead k (hj.trans hk)
      · exact hlive hfalse r' hr' k (by rw [hjobs]; exact hk)
    cases j with
    | none => exact hrest fun k hk => by cases hk
    | some k =>
      dsimp only
      split
      · next hlive =>
        rw [leads_pure]
        exact ⟨ha, fun hfalse => by cases hfalse⟩
      · next hlive =>
        refine hrest fun k' hk => ?_
        cases hk
        simpa using hlive

/-- A file that is found not to be pinned has no live job that refers to it. -/
theorem leads_isPinned (h : s.Secluded) (id : FileId) :
    Leads (isPinned id) (fun e s' => s.Refused e ∧ Aside s s')
      (fun pinned s' => Aside s s' ∧ (pinned = false →
        ∀ r ∈ s.inventory.referrers id, ∀ j, s.inventory.jobs.get? r = some j →
          j.status.isLive = false)) s := by
  rw [isPinned, leads_bind]
  refine (Records.leads_findReferrers id s).mono (fun e s₁ h => h) fun rs s₁ ⟨hrs, ha⟩ => ?_
  have hjobs : s₁.inventory.jobs = s.inventory.jobs := by cases ha; rfl
  refine (leads_anyLive rs (h.aside ha)).mono (fun e s₂ ⟨hr, ha'⟩ => ⟨hr.aside ha, ha.trans ha'⟩)
    fun pinned s₂ ⟨ha', hlive⟩ => ⟨ha.trans ha', fun hfalse r hr j hj => ?_⟩
  exact hlive hfalse r (hrs ▸ hr) j (by rw [hjobs]; exact hj)

/-- Bytes are removed from the disk, and nothing else happens. -/
theorem leads_eraseBytes (f : FileRecord) (s : Site) {E : Failure → Site → Prop} :
    Leads (eraseBytes f) E (fun _ s' => ∃ disk, s' = { s with disk := disk }) s := by
  rw [eraseBytes, leads_modify]
  split
  · exact ⟨s.disk, rfl⟩
  · split
    · exact ⟨_, rfl⟩
    · exact ⟨s.disk, rfl⟩

/-- A file that may be evicted is. -/
theorem leads_evictFile (h : s.Secluded) {f : FileRecord}
    (kept : s.inventory.files.get? f.fileId = some f)
    (unlocked : ∃ u, f.unlockAt = some u ∧ u < s.clock.now)
    (free : s.account.isReserved f.fileId = false)
    (unpinned : ∀ r ∈ s.inventory.referrers f.fileId, ∀ j, s.inventory.jobs.get? r = some j →
      j.status.isLive = false) :
    Leads (evictFile f.fileId) (fun e s' => s.Refused e ∧ Aside s s')
      (fun kb s' => kb = some f.chargedKb ∧ Evictions s s' ∧
        s'.inventory = s.inventory.deleteFile f.fileId) s := by
  rw [evictFile, leads_bind]
  refine (Records.leads_deleteFile h f.fileId).mono (fun e s₁ h => h)
    fun found s₁ ⟨hfound, t, ht, hs₁⟩ => ?_
  obtain rfl : found = some f := hfound.trans kept
  subst hs₁
  simp only [leads_bind]
  refine (leads_eraseBytes f _).mono (fun e _ hf => hf) fun _ s₂ ⟨disk, hs₂⟩ => ?_
  subst hs₂
  simp only [leads_modify, leads_now, leads_get, leads_note, leads_pure]
  refine ⟨trivial, ?_, ?_⟩
  · obtain ⟨faults, disk', supply, goOn⟩ := ht
    exact (Relation.ReflTransGen.single (.aside (.intro faults disk' supply goOn))).tail
      (.evicted disk kept unlocked free unpinned)
  · cases ht
    rfl

/-! ### Evicting many files -/

/-- Files of a list are evicted in its order, for as long as more room is wanted. -/
theorem leads_evictAmong (required : Option UInt64) :
    ∀ (l : List FileRecord) (done : Reclaim) {s : Site}, s.Secluded → s.Lists l →
      Leads (evictAmong required l done) (fun e s' => s.Refused e ∧ Evictions s s')
        (fun _ s' => Evictions s s') s
  | [], done, s, h, hl => by
    rw [evictAmong, leads_pure]
  | f :: rest, done, s, h, hl => by
    simp only [evictAmong, leads_bind, leads_get]
    split
    · rw [leads_pure]
    simp only [leads_bind, leads_get]
    split
    · exact leads_evictAmong required rest done h hl.tail
    next hfree =>
    rw [leads_bind]
    refine (leads_isPinned h f.fileId).mono (fun e s₁ ⟨hr, ha⟩ => ⟨hr, ha.evictions⟩)
      fun pinned s₁ ⟨ha, hpinned⟩ => ?_
    have later : ∀ {s₂ : Site}, Evictions s s₂ → s₂.Lists rest → ∀ done,
        Leads (evictAmong required rest done) (fun e s' => s.Refused e ∧ Evictions s s')
          (fun _ s' => Evictions s s') s₂ := by
      intro s₂ he hrest done
      exact (leads_evictAmong required rest done (he.secluded h) hrest).mono
        (fun e s₃ ⟨hr, he'⟩ => ⟨he.refused hr, he.trans he'⟩) fun _ s₃ he' => he.trans he'
    cases pinned with
    | true => exact later ha.evictions (hl.aside ha).tail done
    | false =>
      have hs₁ := hl.aside ha
      simp only [Bool.false_eq_true, if_false, leads_bind]
      have hevict : Leads (evictFile f.fileId) (fun e s' => s₁.Refused e ∧ Aside s₁ s')
          (fun kb s' => kb = some f.chargedKb ∧ Evictions s₁ s' ∧
            s'.inventory = s₁.inventory.deleteFile f.fileId) s₁ := by
        refine leads_evictFile (h.aside ha) (hs₁.kept f (.head _)) (hs₁.unlocked f (.head _)) ?_ ?_
        · cases ha
          simpa using hfree
        · cases ha
          exact hpinned rfl
      refine hevict.mono
        (fun e s₂ ⟨hr, ha'⟩ => ⟨hr.aside ha, ha.evictions.trans ha'.evictions⟩)
        fun kb s₂ ⟨hkb, he, hinv⟩ => ?_
      subst hkb
      exact later (ha.evictions.trans he) (hs₁.deleteFile hinv he.frame.clock) _

/-- **An eviction of many files is a course of single evictions**, wherever it stops. -/
theorem leads_evict (h : s.Secluded) (hn : s.inventory.Named) (required : Option UInt64) :
    Leads (evict required) (fun e s' => s.Refused e ∧ Evictions s s')
      (fun done s' => Evictions s s' ∧
        done.satisfied = (required.isNone || s'.hasRoom required)) s := by
  simp only [evict, leads_bind, leads_now]
  refine (Records.leads_findUnlocked s.clock.now s).mono (fun e s₁ ⟨hr, ha⟩ => ⟨hr, ha.evictions⟩)
    fun l s₁ ⟨hl, ha⟩ => ?_
  have hlists : s₁.Lists l := hl ▸ hn.lists_unlocked.aside ha
  refine (leads_evictAmong required l {} (h.aside ha) hlists).mono
    (fun e s₂ ⟨hr, he⟩ => ⟨hr.aside ha, ha.evictions.trans he⟩) fun done s₂ he => ?_
  simp only [leads_get, leads_pure]
  exact ⟨ha.evictions.trans he, trivial⟩

/-- **Room is reserved only where there is room**, after a course of evictions if need be; if there is
none, that course is all that happens. -/
theorem leads_reserve (h : s.Secluded) (hn : s.inventory.Named) {id : FileId} (kb : UInt64)
    (free : s.account.isReserved id = false) :
    Leads (reserve id kb)
      (fun e s' => Evictions s s' ∧ (s.Refused e ∨ ∃ kb room, e = .capacityExceeded kb room))
      (fun _ s' => ∃ s₁, Evictions s s₁ ∧ s₁.hasRoom (some kb) = true ∧
        s' = { s₁ with account := s₁.account.reserve id kb }) s := by
  rw [reserve, leads_bind, leads_get]
  refine leads_ite.2 ⟨fun hreserved => ?_, fun _ => ?_⟩
  · rw [free] at hreserved
    cases hreserved
  rw [leads_bind, leads_get]
  refine leads_ite.2 ⟨fun hroom => ?_, fun hroom => ?_⟩
  · rw [leads_bind]
    refine (leads_evict h hn (some kb)).mono (fun e s₁ ⟨hr, he⟩ => ⟨he, .inl hr⟩)
      fun done s₁ ⟨he, hdone⟩ => ?_
    rw [Option.isNone_some, Bool.false_or] at hdone
    refine leads_ite.2 ⟨fun hsatisfied => ?_, fun hsatisfied => ?_⟩
    · simp only [leads_bind, leads_get, leads_throw]
      exact ⟨he, .inr ⟨kb, s₁.freeKb, rfl⟩⟩
    · rw [leads_modify]
      exact ⟨s₁, he, hdone.symm.trans (by simpa using hsatisfied), rfl⟩
  · rw [leads_modify]
    exact ⟨s, .refl, by simpa using hroom, rfl⟩

end Room

end Depot
