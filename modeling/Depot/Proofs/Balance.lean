import Depot.Proofs.Change
import Depot.Proofs.Inventory

/-!
# The books balance

What a depot charges is what it keeps: the committed kilobytes are those of the files that are there, and
there is a reservation for each file on its way and no other, of as much as its record estimates. A file
on its way counts as in flight, and the record that its transfer carries is the one that is kept.

## Main statements

* `Balanced.change`, `Balanced.history` — every change of a depot keeps its books balanced, and so does
  all that happens.
* `Balanced.used_eq` — what is taken up, by the records that are kept and those on their way.
-/

namespace Depot

/-- **The books of a depot balance.** -/
structure Site.Balanced (s : Site) : Prop where
  named : s.inventory.Named
  committed : s.account.committed = s.inventory.availableKb
  reserved : s.account.reservations.entries.Perm (s.carried.map fun f => (f.fileId, f.estimatedKb))
  flying : ∀ f ∈ s.carried, s.inFlight.contains f.fileId = true
  kept : ∀ f ∈ s.carried, s.inventory.files.get? f.fileId = some f
  pending : ∀ f ∈ s.carried, f.isPending = true

/-! ### Names -/

namespace Inventory.Named

variable {v : Inventory}

theorem fresh : Inventory.fresh.Named :=
  ⟨fun _ _ hf => (by cases hf), fun _ _ hj => (by cases hj)⟩

theorem saveFile (h : v.Named) (f : FileRecord) : (v.saveFile f).Named := by
  refine ⟨fun id g hg => ?_, h.jobs⟩
  rw [get?_saveFile] at hg
  split at hg
  · next hid => cases hg; exact hid.symm
  · exact h.files id g hg

theorem deleteFile (h : v.Named) (id : FileId) : (v.deleteFile id).Named := by
  refine ⟨fun id' g hg => ?_, h.jobs⟩
  rw [get?_deleteFile] at hg
  split at hg
  · cases hg
  · exact h.files id' g hg

theorem removeReference (h : v.Named) (id : FileId) (r : RequestId) :
    (v.removeReference id r).Named :=
  ⟨by rw [files_removeReference]; exact h.files, by rw [jobs_removeReference]; exact h.jobs⟩

theorem saveJob (h : v.Named) (j : Job) : (v.saveJob j).Named := by
  refine ⟨h.files, fun r k hk => ?_⟩
  rw [get?_saveJob] at hk
  split at hk
  · next hr => cases hk; exact hr.symm
  · exact h.jobs r k hk

theorem overwriteStatus (h : v.Named) (r : RequestId) (status : JobStatus) :
    (v.overwriteStatus r status).Named := by
  unfold Inventory.overwriteStatus
  cases v.jobs.get? r with
  | none => exact h
  | some j => exact h.saveJob _

end Inventory.Named

/-! ### Reservations -/

/-- A reservation among others can be given back. -/
theorem Account.release_perm {a : Account} {id : FileId} {kb : UInt64} {l : List (FileId × UInt64)}
    (h : a.reservations.entries.Perm ((id, kb) :: l)) : (a.release id).reservations.entries.Perm l := by
  have hk : a.reservations.get? id = some kb :=
    (Table.get?_eq_some_iff _ _ _).2 (h.mem_iff.2 (.head _))
  exact ((Table.entries_perm_of_get? hk).symm.trans h).cons_inv

/-- A new reservation comes beside the others. -/
theorem Account.reserve_perm {a : Account} {id : FileId} (kb : UInt64) (h : a.isReserved id = false) :
    (a.reserve id kb).reservations.entries.Perm ((id, kb) :: a.reservations.entries) := by
  have hp := Table.entries_insert_perm a.reservations id kb
  rwa [Table.erase_of_get?_eq_none (Table.contains_eq_false.1 h)] at hp

/-- A new reservation can be given back without a trace. -/
theorem Account.release_reserve {a : Account} {id : FileId} (kb : UInt64)
    (h : a.isReserved id = false) : (a.reserve id kb).release id = a := by
  unfold Account.release Account.reserve
  rw [Table.erase_insert_of_get?_eq_none (Table.contains_eq_false.1 h)]

/-- A file that is wanted is charged nothing. -/
theorem Inventory.Wants.chargedKb_eq {v : Inventory} {f : FileRecord} (h : v.Wants f) :
    v.chargedKb f.fileId = 0 := by
  unfold Inventory.chargedKb
  cases hf : v.files.get? f.fileId with
  | none => rfl
  | some f₀ =>
    obtain ⟨hnot, hsound, -⟩ := h.kept f₀ hf
    simp only [Option.map_some, Option.getD_some, FileRecord.chargedKb]
    cases havail : f₀.available with
    | false => rfl
    | true =>
      cases hsize : f₀.sizeKb with
      | none => rfl
      | some kb => exact absurd ⟨havail, by rw [hsize]; rfl, hsound⟩ hnot

namespace Site.Balanced

variable {s s' : Site}

/-- The files with a reservation are those on their way. -/
theorem isReserved_iff (h : s.Balanced) (id : FileId) :
    s.account.isReserved id = true ↔ ∃ f ∈ s.carried, f.fileId = id := by
  simp only [Account.isReserved, Table.contains_eq_true, Table.get?_eq_some_iff, h.reserved.mem_iff,
    List.mem_map, Prod.mk.injEq]
  constructor
  · rintro ⟨kb, f, hf, hid, -⟩
    exact ⟨f, hf, hid⟩
  · rintro ⟨f, hf, hid⟩
    exact ⟨_, f, hf, hid, rfl⟩

/-- No file is on its way twice. -/
theorem nodup (h : s.Balanced) : (s.carried.map FileRecord.fileId).Nodup := by
  have hp := h.reserved.map Prod.fst
  rw [List.map_map] at hp
  refine hp.nodup_iff.1 ?_
  rw [List.nodup_iff_pairwise_ne, List.pairwise_map]
  refine s.account.reservations.sorted.imp fun {a b} hab heq => ?_
  rw [heq] at hab
  simp at hab

/-- A file that is not in flight is not on its way. -/
theorem ne_of_grounded (h : s.Balanced) {id : FileId} (hid : s.inFlight.contains id = false) :
    ∀ f ∈ s.carried, f.fileId ≠ id := by
  intro f hf heq
  have hfly := h.flying f hf
  rw [heq, hid] at hfly
  cases hfly

/-- A file that is not in flight has no reservation. -/
theorem not_reserved (h : s.Balanced) {id : FileId} (hid : s.inFlight.contains id = false) :
    s.account.isReserved id = false := by
  rw [← Bool.not_eq_true, h.isReserved_iff]
  rintro ⟨f, hf, heq⟩
  exact h.ne_of_grounded hid f hf heq

/-- **What is taken up**: the files that are there, and the estimates of those on their way. -/
theorem used_eq (h : s.Balanced) :
    s.account.used =
      s.inventory.availableKb + (s.carried.map fun f => f.estimatedKb.toNat).sum := by
  have hp := h.reserved.map fun e => e.2.toNat
  simp only [List.map_map, Function.comp_def] at hp
  simp only [Account.used, Account.reserved, Table.total_eq_sum]
  rw [h.committed, hp.sum_nat]

/-! ### Changes that leave the books alone -/

/-- What is neither kept nor charged may change freely. -/
theorem of_same (h : s.Balanced) (named : s'.inventory.Named)
    (files : s'.inventory.files = s.inventory.files) (account : s'.account = s.account)
    (inFlight : s'.inFlight = s.inFlight) (carried : s'.carried.Perm s.carried) : s'.Balanced := by
  refine ⟨named, ?_, ?_, ?_, ?_, ?_⟩
  · rw [account, h.committed, Inventory.availableKb, Inventory.availableKb, files]
  · rw [account]
    exact h.reserved.trans (carried.symm.map _)
  · intro f hf
    rw [inFlight]
    exact h.flying f (carried.mem_iff.1 hf)
  · intro f hf
    rw [files]
    exact h.kept f (carried.mem_iff.1 hf)
  · intro f hf
    exact h.pending f (carried.mem_iff.1 hf)

theorem founding (h : s.Balanced) {r : RequestId} (c : Founding r s s') : s'.Balanced := by
  cases c with
  | created => exact h.of_same (h.named.saveJob _) rfl rfl rfl (.refl _)
  | packaged => exact h.of_same h.named rfl rfl rfl (.refl _)
  | overwritten status =>
    exact h.of_same (h.named.overwriteStatus r status) (Inventory.files_overwriteStatus ..) rfl rfl
      (.refl _)

theorem jobChange (h : s.Balanced) (c : JobChange s s') : s'.Balanced := by
  cases c with
  | administered | failed | readied | expired | cancelled =>
    exact h.of_same (h.named.saveJob _) rfl rfl rfl (.refl _)

/-! ### Changes of files -/

/-- A record that replaces the one of a file that is not on its way, with what it is charged more. -/
theorem keep (h : s.Balanced) {f : FileRecord} (kb : Nat)
    (charged : s.inventory.chargedKb f.fileId + kb = f.chargedKb)
    (grounded : s.inFlight.contains f.fileId = false) :
    { s with
      inventory := s.inventory.saveFile f
      account := { s.account with committed := s.account.committed + kb } }.Balanced := by
  refine ⟨h.named.saveFile f, ?_, h.reserved, h.flying, ?_, h.pending⟩
  · have hkb := s.inventory.availableKb_saveFile f
    have hc := h.committed
    dsimp only at *
    omega
  · intro g hg
    dsimp only
    rw [Inventory.get?_saveFile_of_ne _ (h.ne_of_grounded grounded g hg)]
    exact h.kept g hg

/-- A record that replaces the one of a file that is not on its way, and is charged the same. -/
theorem saveFile (h : s.Balanced) {f : FileRecord} (charged : s.inventory.chargedKb f.fileId = f.chargedKb)
    (grounded : s.inFlight.contains f.fileId = false) :
    { s with inventory := s.inventory.saveFile f }.Balanced :=
  h.keep 0 charged grounded

theorem evict (h : s.Balanced) (c : Evict s s') : s'.Balanced := by
  cases c with
  | aside h' =>
    cases h'
    exact h.of_same h.named rfl rfl rfl (.refl _)
  | @evicted f disk kept unlocked free unpinned =>
    have hne : ∀ g ∈ s.carried, g.fileId ≠ f.fileId := by
      intro g hg heq
      rw [(h.isReserved_iff _).2 ⟨g, hg, heq⟩] at free
      cases free
    refine ⟨h.named.deleteFile f.fileId, ?_, h.reserved, h.flying, ?_, h.pending⟩
    · have hkb := s.inventory.availableKb_deleteFile f.fileId
      have hf := s.inventory.chargedKb_of_kept kept
      have hc := h.committed
      simp only [Account.discharge]
      omega
    · intro g hg
      dsimp only
      rw [Inventory.get?_deleteFile_of_ne _ (hne g hg)]
      exact h.kept g hg

theorem queue (h : s.Balanced) {f : FileRecord} (time : Nat)
    (grounded : s.inFlight.contains f.fileId = false) (wanted : s.inventory.Wants f) :
    { s with
      inventory := s.inventory.saveFile f
      account := s.account.reserve f.fileId f.estimatedKb
      inFlight := s.inFlight.add f.fileId
      tasks := s.tasks ++ [Task.transfer ⟨f, .resting time⟩]
      log := s.log ++ [Happening.queued f] }.Balanced := by
  have hcarried : recordsOf (s.tasks ++ [Task.transfer ⟨f, .resting time⟩]) = s.carried ++ [f] := by
    simp [recordsOf, Site.carried, Task.transfer?]
  have hmem : ∀ g, g ∈ s.carried ++ [f] ↔ g ∈ s.carried ∨ g = f := by simp
  have hs := h.saveFile (wanted.chargedKb_eq.trans
    (FileRecord.chargedKb_of_isPending wanted.pending).symm) grounded
  refine ⟨hs.named, hs.committed, ?_, ?_, ?_, ?_⟩
  · show List.Perm _ ((recordsOf _).map _)
    rw [hcarried, List.map_append]
    exact (Account.reserve_perm f.estimatedKb (h.not_reserved grounded)).trans
      ((h.reserved.cons _).trans (List.perm_append_singleton _ _).symm)
  · intro g hg
    rw [KeySet.contains_add]
    rcases (hmem g).1 (hcarried ▸ hg) with hg | rfl
    · exact .inr (h.flying g hg)
    · exact .inl rfl
  · intro g hg
    rcases (hmem g).1 (hcarried ▸ hg) with hg | rfl
    · exact hs.kept g hg
    · dsimp only
      rw [Inventory.get?_saveFile_self]
  · intro g hg
    rcases (hmem g).1 (hcarried ▸ hg) with hg | rfl
    · exact h.pending g hg
    · exact wanted.pending

theorem fileChange (h : s.Balanced) (c : FileChange s s') : s'.Balanced := by
  cases c with
  | evict h' => exact h.evict h'
  | attached id r =>
    exact h.of_same ⟨h.named.files, h.named.jobs⟩ rfl rfl rfl (.refl _)
  | detached id r absent =>
    exact h.of_same (h.named.removeReference id r) (Inventory.files_removeReference ..) rfl rfl
      (.refl _)
  | queued time grounded wanted room => exact h.queue time grounded wanted
  | @unlocked f grounded wanted kept locked =>
    refine h.saveFile ?_ grounded
    exact wanted.chargedKb_eq.trans (FileRecord.chargedKb_of_isPending wanted.pending).symm
  | strayed stranded faulty =>
    refine ⟨h.named, h.committed, h.reserved, fun f hf => ?_, h.kept, h.pending⟩
    rw [KeySet.contains_add]
    exact .inr (h.flying f hf)
  | @extended f time kept there grounded =>
    refine h.saveFile ?_ grounded
    show s.inventory.chargedKb f.fileId = f.chargedKb
    exact s.inventory.chargedKb_of_kept kept

/-! ### Changes of transfers -/

/-- Its transfer ends, and what was reserved for a file is given back. -/
theorem land (h : s.Balanced) {f : FileRecord} {tasks : List Task}
    (rest : s.carried.Perm (f :: recordsOf tasks)) :
    { s with
      account := s.account.release f.fileId
      inFlight := s.inFlight.erase f.fileId
      tasks := tasks }.Balanced := by
  have hnodup := (rest.map FileRecord.fileId).nodup_iff.1 h.nodup
  rw [List.map_cons, List.nodup_cons] at hnodup
  have hmem : ∀ g ∈ recordsOf tasks, g ∈ s.carried := fun g hg => rest.mem_iff.2 (.tail _ hg)
  refine ⟨h.named, h.committed, ?_, ?_, ?_, ?_⟩
  · exact Account.release_perm (h.reserved.trans (rest.map _))
  · intro g hg
    rw [KeySet.contains_erase]
    refine ⟨fun heq => hnodup.1 ?_, h.flying g (hmem g hg)⟩
    rw [← heq]
    exact List.mem_map_of_mem hg
  · exact fun g hg => h.kept g (hmem g hg)
  · exact fun g hg => h.pending g (hmem g hg)

/-- A file on its way is charged nothing. -/
theorem chargedKb_of_carried (h : s.Balanced) {f : FileRecord} (hf : f ∈ s.carried) :
    s.inventory.chargedKb f.fileId = 0 := by
  unfold Inventory.chargedKb
  rw [h.kept f hf]
  exact FileRecord.chargedKb_of_isPending (h.pending f hf)

/-- A record on its way is set back. -/
theorem putBack (h : s.Balanced) {f : FileRecord} (f' : FileRecord) {tasks others : List Task}
    (id : f'.fileId = f.fileId) (estimate : f'.estimatedKb = f.estimatedKb)
    (pending : f'.isPending = true) (rest : s.carried.Perm (f :: recordsOf others))
    (back : (recordsOf tasks).Perm (f' :: recordsOf others)) :
    { s with inventory := s.inventory.saveFile f', tasks := tasks }.Balanced := by
  have hnodup := (rest.map FileRecord.fileId).nodup_iff.1 h.nodup
  rw [List.map_cons, List.nodup_cons] at hnodup
  have hf : f ∈ s.carried := rest.mem_iff.2 (.head _)
  have hmem : ∀ g ∈ recordsOf tasks, g = f' ∨ g ∈ s.carried ∧ g.fileId ≠ f'.fileId := by
    intro g hg
    rcases List.mem_cons.1 (back.mem_iff.1 hg) with rfl | hg
    · exact .inl rfl
    · refine .inr ⟨rest.mem_iff.2 (.tail _ hg), fun heq => hnodup.1 ?_⟩
      rw [← id, ← heq]
      exact List.mem_map_of_mem hg
  refine ⟨h.named.saveFile f', ?_, ?_, ?_, ?_, ?_⟩
  · have hkb := s.inventory.availableKb_saveFile f'
    have hold := h.chargedKb_of_carried hf
    have hnew := FileRecord.chargedKb_of_isPending pending
    have hc := h.committed
    rw [← id] at hold
    dsimp only
    omega
  · refine h.reserved.trans ((rest.map _).trans ?_)
    rw [List.map_cons, ← id, ← estimate]
    exact (back.map fun f => (f.fileId, f.estimatedKb)).symm
  · intro g hg
    rcases hmem g hg with rfl | ⟨hg, -⟩
    · rw [id]
      exact h.flying f hf
    · exact h.flying g hg
  · intro g hg
    dsimp only
    rcases hmem g hg with rfl | ⟨hg, hne⟩
    · rw [Inventory.get?_saveFile_self]
    · rw [Inventory.get?_saveFile_of_ne _ hne]
      exact h.kept g hg
  · intro g hg
    rcases hmem g hg with rfl | ⟨hg, -⟩
    · exact pending
    · exact h.pending g hg

theorem transferChange (h : s.Balanced) (c : TransferChange s s') : s'.Balanced := by
  cases c with
  | moved tasks log same calls => exact h.of_same h.named rfl rfl rfl same
  | @arrived f d place tasks rest =>
    have hf : f ∈ s.carried := rest.mem_iff.2 (.head _)
    have hkb : s.inventory.chargedKb f.fileId + d.sizeKb.toNat =
        (Transfers.arrived s f d.sizeKb place).chargedKb := by
      rw [h.chargedKb_of_carried hf, Nat.zero_add]
      rfl
    have hgrounded : (s.inFlight.erase f.fileId).contains f.fileId = false := by
      rw [← Bool.not_eq_true, KeySet.contains_erase]
      exact fun hc => hc.1 rfl
    have hkeep := (h.land rest).keep (f := Transfers.arrived s f d.sizeKb place) d.sizeKb.toNat hkb
      hgrounded
    exact hkeep.of_same (h.named.saveFile _) rfl rfl rfl (.refl _)
  | @givenUp f e tasks rest hopeless =>
    have hf : f ∈ s.carried := rest.mem_iff.2 (.head _)
    have hkb : s.inventory.chargedKb f.fileId =
        (Transfers.givenUp s (Transfers.setBack f e)).chargedKb := by
      rw [h.chargedKb_of_carried hf]
      exact (FileRecord.chargedKb_of_isPending (h.pending f hf)).symm
    have hgrounded : (s.inFlight.erase f.fileId).contains f.fileId = false := by
      rw [← Bool.not_eq_true, KeySet.contains_erase]
      exact fun hc => hc.1 rfl
    have hsave := (h.land rest).saveFile (f := Transfers.givenUp s (Transfers.setBack f e)) hkb
      hgrounded
    exact hsave.of_same (h.named.saveFile _) rfl rfl rfl (.refl _)
  | @setBack f e tasks others rest back hopeful =>
    have hf : f ∈ s.carried := rest.mem_iff.2 (.head _)
    have hback := h.putBack (f := f) (Transfers.setBack f e) rfl rfl (h.pending f hf) rest back
    exact hback.of_same (h.named.saveFile _) rfl rfl rfl (.refl _)
  | @brokenOff f result tasks rest faulty =>
    exact (h.land rest).of_same h.named rfl rfl rfl (.refl _)

/-! ### All changes -/

/-- **Every change keeps the books balanced.** -/
theorem change (h : s.Balanced) (c : Change s s') : s'.Balanced := by
  cases c with
  | file c => exact h.fileChange c
  | transfer c => exact h.transferChange c
  | job c => exact h.jobChange c
  | warned | told | clocked | spoiled => exact h.of_same h.named rfl rfl rfl (.refl _)
  | duties tasks same =>
    refine h.of_same h.named rfl rfl rfl ?_
    show (recordsOf tasks).Perm _
    unfold recordsOf
    rw [same]
    exact .refl _

theorem deed (h : s.Balanced) (d : Deed s s') : s'.Balanced := by
  cases d with
  | change c => exact h.change c
  | founding r c => exact h.founding c

/-- The books of a depot that is opened again balance. -/
theorem reopen (h : s.Balanced) (settings : Settings) : (s.reopen settings).Balanced := by
  have hnone : ∀ f : FileRecord, f ∉ recordsOf [] := fun f hf => by cases hf
  exact ⟨h.named, rfl, .refl _, fun f hf => absurd hf (hnone f), fun f hf => absurd hf (hnone f),
    fun f hf => absurd hf (hnone f)⟩

theorem event (h : s.Balanced) (e : Event s s') : s'.Balanced := by
  cases e with
  | deed d => exact h.deed d
  | reopened settings => exact h.reopen settings

/-- All that happens keeps the books balanced. -/
theorem history (h : s.Balanced) (c : History s s') : s'.Balanced := by
  induction c with
  | refl => exact h
  | tail _ e ih => exact ih.event e

/-- A course of changes keeps the books balanced. -/
theorem course (h : s.Balanced) (c : Course s s') : s'.Balanced := h.history c.history

end Site.Balanced

end Depot
