import Depot.Proofs.Eviction
import Depot.Proofs.Sending

/-!
# What is evicted for a transfer

Room is reserved for a file before its record is kept, and until then the file is like any other: it may be
evicted to make the room that is meant for it. If its unlock time has passed, and no live job refers to it, it
takes its turn with the others; its record goes and comes back, but the references to it are gone. Where many
files are resumed, one after the other, an earlier one may evict a later one in the same way.

So which files keep their references can be said in advance, and that is done here for every inventory, also for
one that keeps records under names other than their own. There an eviction drops whatever is kept under the
name, and the references, even if nothing is kept.

## Main statements

* `Room.leads_evict_dismisses`, `Room.leads_reserve_clears` — what an eviction and a reservation leave.
* `Site.mem_displacedBy` — a file goes if its turn comes before there is enough room.
* `Site.displaced_of_named` — as few go as give enough room, where records are kept under their own names.
* `references_after_queueing` — which references are lost when files are asked for and when they are resumed.
* `queued_file_loses_its_references` — a file that is evicted to make room for itself.
-/

namespace Depot

open Act Time

variable {s s' : Site} {E : Failure → Site → Prop}

/-! ### Dismissing files -/

/-- The site when the file of a name has been evicted, whatever is kept under that name. -/
def Site.dismiss (s : Site) (id : FileId) : Site :=
  match s.inventory.files.get? id with
  | none => { s with inventory := s.inventory.deleteFile id }
  | some f =>
    { s with
      inventory := s.inventory.deleteFile id
      disk := s.diskWithout f
      account := s.account.discharge f.chargedKb
      log := s.log ++ [.evicted f s.clock.now (s.inventory.deleteFile id)] }

/-- The site when the files of a list of names have been evicted. -/
def Site.dismissAll (s : Site) (ids : List FileId) : Site := ids.foldl Site.dismiss s

@[simp] theorem Site.dismissAll_nil (s : Site) : s.dismissAll [] = s := rfl

@[simp] theorem Site.dismissAll_cons (s : Site) (id : FileId) (ids : List FileId) :
    s.dismissAll (id :: ids) = (s.dismiss id).dismissAll ids := rfl

theorem Site.inventory_dismiss (s : Site) (id : FileId) :
    (s.dismiss id).inventory = s.inventory.deleteFile id := by
  unfold dismiss
  split <;> rfl

theorem Site.reservations_dismiss (s : Site) (id : FileId) :
    (s.dismiss id).account.reservations = s.account.reservations := by
  unfold dismiss
  split <;> rfl

/-- Whatever is dismissed, only the inventory, the disk, the account and the log change. -/
theorem Site.dismiss_eq (s : Site) (id : FileId) :
    s.dismiss id =
      { s with
        inventory := (s.dismiss id).inventory, disk := (s.dismiss id).disk
        account := (s.dismiss id).account, log := (s.dismiss id).log } := by
  unfold dismiss
  split <;> rfl

theorem Site.Quiet.dismiss (h : s.Quiet) (id : FileId) : (s.dismiss id).Quiet := by
  rw [Site.dismiss_eq]
  exact h.of_same rfl rfl rfl

theorem Site.dismissAll_eq (s : Site) (ids : List FileId) :
    s.dismissAll ids =
      { s with
        inventory := (s.dismissAll ids).inventory, disk := (s.dismissAll ids).disk
        account := (s.dismissAll ids).account, log := (s.dismissAll ids).log } := by
  induction ids generalizing s with
  | nil => rfl
  | cons id ids ih => rw [dismissAll_cons, ih, dismiss_eq]

theorem Site.inFlight_dismissAll (s : Site) (ids : List FileId) :
    (s.dismissAll ids).inFlight = s.inFlight := by rw [dismissAll_eq]

theorem Site.settings_dismissAll (s : Site) (ids : List FileId) :
    (s.dismissAll ids).settings = s.settings := by rw [dismissAll_eq]

theorem Site.reservations_dismissAll (s : Site) (ids : List FileId) :
    (s.dismissAll ids).account.reservations = s.account.reservations := by
  induction ids generalizing s with
  | nil => rfl
  | cons id ids ih => rw [dismissAll_cons, ih, reservations_dismiss]

theorem Site.Quiet.dismissAll (h : s.Quiet) (ids : List FileId) : (s.dismissAll ids).Quiet := by
  induction ids generalizing s with
  | nil => exact h
  | cons id ids ih => exact ih (h.dismiss id)

/-- The references to the files that go are dropped, and no others. -/
theorem Site.references_dismissAll (s : Site) (ids : List FileId) (id : FileId) :
    (s.dismissAll ids).inventory.references.get? id =
      if id ∈ ids then none else s.inventory.references.get? id := by
  induction ids generalizing s with
  | nil => rfl
  | cons x ids ih =>
    have hone : (s.dismiss x).inventory.references.get? id =
        if id = x then none else s.inventory.references.get? id := by
      rw [inventory_dismiss]
      exact Table.get?_erase ..
    simp only [dismissAll_cons, ih, hone, List.mem_cons, ite_or]
    split_ifs <;> rfl

/-! ### Files that make room -/

/-- The files that are evicted from a list of names when room is required: one after the other, until there is
enough. -/
def Site.displacedBy (s : Site) (required : Option UInt64) : List FileId → List FileId
  | [] => []
  | id :: rest => if s.hasRoom required then [] else id :: (s.dismiss id).displacedBy required rest

theorem Site.displacedBy_of_hasRoom {required : Option UInt64} (h : s.hasRoom required = true)
    (ids : List FileId) : s.displacedBy required ids = [] := by
  cases ids with
  | nil => rfl
  | cons => rw [displacedBy, if_pos h]

/-- **A file goes if its turn comes before there is enough room**: there was too little before, and too little
after each of the files that come before it. -/
theorem Site.mem_displacedBy {required : Option UInt64} {id : FileId} {ids : List FileId} :
    id ∈ s.displacedBy required ids ↔ ∃ before after, ids = before ++ id :: after ∧
      ∀ k ≤ before.length, (s.dismissAll (before.take k)).hasRoom required = false := by
  induction ids generalizing s with
  | nil => simp [displacedBy]
  | cons x rest ih =>
    rw [displacedBy]
    cases hroom : s.hasRoom required with
    | true =>
      rw [if_pos rfl]
      refine ⟨nofun, ?_⟩
      rintro ⟨before, after, -, hfull⟩
      have hnow := hfull 0 (Nat.zero_le _)
      rw [List.take_zero, dismissAll_nil, hroom] at hnow
      cases hnow
    | false =>
      rw [if_neg Bool.false_ne_true, List.mem_cons, ih]
      constructor
      · rintro (rfl | ⟨before, after, rfl, hfull⟩)
        · refine ⟨[], rest, rfl, fun k hk => ?_⟩
          rw [List.take_nil]
          exact hroom
        · refine ⟨x :: before, after, rfl, fun k hk => ?_⟩
          cases k with
          | zero => exact hroom
          | succ k => exact hfull k (Nat.le_of_succ_le_succ hk)
      · rintro ⟨before, after, heq, hfull⟩
        cases before with
        | nil => exact .inl (List.cons.inj heq).1.symm
        | cons y before =>
          obtain ⟨rfl, rfl⟩ := List.cons.inj heq
          exact .inr ⟨before, after, rfl, fun k hk => hfull (k + 1) (Nat.succ_le_succ hk)⟩

/-- The site when room has been made, whatever the names its records are kept under. -/
def Site.cleared (s : Site) (required : Option UInt64) : Site :=
  s.dismissAll (s.displacedBy required (s.evictable.map FileRecord.fileId))

theorem Site.cleared_of_hasRoom {required : Option UInt64} (h : s.hasRoom required = true) :
    s.cleared required = s := by
  rw [cleared, displacedBy_of_hasRoom h, dismissAll_nil]

/-- **There is room in the end** if some number of files, in their order, gives enough. -/
theorem Site.hasRoom_dismissAll_displacedBy {required : Option UInt64} {ids : List FileId} :
    (s.dismissAll (s.displacedBy required ids)).hasRoom required = true ↔
      ∃ k ≤ ids.length, (s.dismissAll (ids.take k)).hasRoom required = true := by
  induction ids generalizing s with
  | nil => simp [displacedBy]
  | cons id rest ih =>
    rw [displacedBy]
    cases hroom : s.hasRoom required with
    | true =>
      rw [if_pos rfl]
      exact iff_of_true hroom ⟨0, Nat.zero_le _, hroom⟩
    | false =>
      rw [if_neg Bool.false_ne_true, dismissAll_cons, ih]
      constructor
      · rintro ⟨k, hk, hfit⟩
        exact ⟨k + 1, Nat.succ_le_succ hk, hfit⟩
      · rintro ⟨k, hk, hfit⟩
        cases k with
        | zero => exact absurd (hroom.symm.trans hfit) Bool.false_ne_true
        | succ k => exact ⟨k, Nat.le_of_succ_le_succ hk, hfit⟩

/-- The files that are evicted when room is reserved for a file; none if it has a reservation. -/
def Site.displaced (s : Site) (f : FileRecord) : List FileId :=
  if s.account.isReserved f.fileId then []
  else s.displacedBy (some f.estimatedKb) (s.evictable.map FileRecord.fileId)

/-- What is evicted under the name of a record that is kept is that record. -/
theorem Site.dismiss_of_kept {f : FileRecord} (kept : s.inventory.files.get? f.fileId = some f) :
    s.dismiss f.fileId = s.letGo f := by
  rw [dismiss, kept]
  rfl

/-- Of records that are kept under their own names as few are displaced as give enough room. -/
theorem Site.displacedBy_of_lists (required : Option UInt64) {l : List FileRecord} (hl : s.Lists l) :
    s.displacedBy required (l.map FileRecord.fileId) =
      (l.take (s.toll required l)).map FileRecord.fileId := by
  induction l generalizing s with
  | nil => rfl
  | cons f rest ih =>
    rw [List.map_cons, displacedBy, toll, dismiss_of_kept (hl.kept f (.head _))]
    split
    · rfl
    · rw [ih (s := s.letGo f) (hl.deleteFile rfl rfl), List.take_succ_cons, List.map_cons]

/-- **Where records are kept under their own names** the files displaced are those that any eviction takes. -/
theorem Site.displaced_of_named (hn : s.inventory.Named) {f : FileRecord}
    (free : s.account.isReserved f.fileId = false) :
    s.displaced f = (s.outgoing (some f.estimatedKb)).map FileRecord.fileId := by
  rw [displaced, free, if_neg Bool.false_ne_true, displacedBy_of_lists _ hn.lists_evictable, outgoing]

/-- Whether a file is given room: it has a reservation, or there is room once others have been evicted. -/
def Site.grants (s : Site) (f : FileRecord) : Bool :=
  s.account.isReserved f.fileId || (s.dismissAll (s.displaced f)).hasRoom (some f.estimatedKb)

/-- **Which files may be evicted** from any inventory: one of its records names the file, and its unlock time has
passed; the file has no reservation, and no live job refers to it. -/
theorem Site.mem_evictable_iff {f : FileRecord} :
    f ∈ s.evictable ↔ f ∈ s.inventory.files.values ∧ (∃ u, f.unlockAt = some u ∧ u < s.clock.now) ∧
      s.account.isReserved f.fileId = false ∧
      ∀ r j, s.inventory.refers f.fileId r = true → s.inventory.jobs.get? r = some j →
        j.status.isLive = false := by
  rw [evictable, List.mem_filter, Inventory.mem_unlockedBefore, Site.isFree_eq_true,
    Inventory.hasLiveReferrer_eq_false, and_assoc]

/-- What a live job refers to is not displaced. -/
theorem Site.not_mem_displaced_of_live {f : FileRecord} {id : FileId} {r : RequestId} {j : Job}
    (refers : s.inventory.refers id r = true) (kept : s.inventory.jobs.get? r = some j)
    (live : j.status.isLive = true) : id ∉ s.displaced f := by
  intro hmem
  rw [displaced] at hmem
  split at hmem
  · cases hmem
  obtain ⟨before, after, hsplit, -⟩ := mem_displacedBy.1 hmem
  have hin : id ∈ s.evictable.map FileRecord.fileId :=
    hsplit ▸ List.mem_append_right _ (.head _)
  obtain ⟨g, hg, rfl⟩ := List.mem_map.1 hin
  have hdead := (mem_evictable_iff.1 hg).2.2.2 r j refers kept
  rw [live] at hdead
  cases hdead

/-! ### Following an eviction -/

namespace Room

theorem leads_evictFile_dismisses (h : s.Quiet) (id : FileId) {Q : Option Nat → Site → Prop} :
    Leads (evictFile id) E Q s ↔
      Q ((s.inventory.files.get? id).map FileRecord.chargedKb) (s.dismiss id) := by
  rw [evictFile, leads_bind, Records.leads_deleteFile_of_quiet h, Site.dismiss]
  cases s.inventory.files.get? id with
  | none =>
    rw [leads_pure]
    rfl
  | some f =>
    simp only [leads_bind]
    rw [leads_eraseBytes_iff]
    simp only [leads_modify, leads_now, leads_get, leads_note, leads_pure]
    rfl

/-- That a file goes that is free makes no difference to which files are free. -/
theorem isFree_dismiss {f : FileRecord} (free : s.isFree f = true) (g : FileRecord) :
    (s.dismiss f.fileId).isFree g = s.isFree g := by
  by_cases hid : g.fileId = f.fileId
  · -- The references to the file are gone, so nobody refers to it.
    have hsame : s.isFree g = s.isFree f := by rw [Site.isFree, Site.isFree, hid]
    rw [hsame, free, Site.isFree_eq_true, Account.isReserved, Site.reservations_dismiss,
      Inventory.hasLiveReferrer_eq_false, hid]
    refine ⟨(Site.isFree_eq_true.1 free).1, fun r j hrefers => ?_⟩
    rw [Inventory.refers, Site.inventory_dismiss, Inventory.deleteFile, Table.get?_erase, if_pos rfl] at hrefers
    cases hrefers
  · have hreferrers : (s.dismiss f.fileId).inventory.referrers g.fileId =
        s.inventory.referrers g.fileId := by
      rw [Site.inventory_dismiss, Inventory.referrers, Inventory.referrers, Inventory.deleteFile,
        Table.get?_erase, if_neg hid]
    rw [Site.isFree, Site.isFree, Account.isReserved, Site.reservations_dismiss, Inventory.hasLiveReferrer,
      hreferrers, Site.inventory_dismiss]
    rfl

/-- **What evictions leave**: of the files of a list that are free the first ones are dismissed, until there is
enough room. -/
theorem leads_evictAmong_dismisses (required : Option UInt64) : ∀ (l : List FileRecord) (done : Reclaim)
    {s : Site}, s.Quiet → Leads (evictAmong required l done) (fun _ _ => False)
      (fun _ s' => s' =
        s.dismissAll (s.displacedBy required ((l.filter s.isFree).map FileRecord.fileId))) s
  | [], done, s, h => by
    rw [evictAmong, leads_pure]
    rfl
  | f :: rest, done, s, h => by
    have hskip := leads_evictAmong_dismisses required rest done h
    simp only [evictAmong, leads_bind, leads_get]
    cases hroom : s.hasRoom required with
    | true =>
      rw [if_pos rfl, leads_pure, Site.displacedBy_of_hasRoom hroom]
      rfl
    | false =>
    rw [if_neg Bool.false_ne_true]
    simp only [leads_bind, leads_get]
    cases hreserved : s.account.isReserved f.fileId with
    | true =>
      have hnot : ¬s.isFree f = true := by simp [Site.isFree, hreserved]
      rw [if_pos rfl, List.filter_cons_of_neg hnot]
      exact hskip
    | false =>
    rw [if_neg Bool.false_ne_true, leads_bind, leads_isPinned_of_quiet h]
    cases hlive : s.inventory.hasLiveReferrer f.fileId with
    | true =>
      have hnot : ¬s.isFree f = true := by simp [Site.isFree, hlive]
      rw [if_pos rfl, List.filter_cons_of_neg hnot]
      exact hskip
    | false =>
      have hfree : s.isFree f = true := Site.isFree_eq_true.2 ⟨hreserved, hlive⟩
      have hgone := fun done => leads_evictAmong_dismisses required rest done (h.dismiss f.fileId)
      rw [funext (isFree_dismiss hfree)] at hgone
      rw [if_neg Bool.false_ne_true, leads_bind, leads_evictFile_dismisses h, List.filter_cons_of_pos hfree,
        List.map_cons, Site.displacedBy, hroom, if_neg Bool.false_ne_true, Site.dismissAll_cons]
      split
      · exact hgone _
      · exact hgone _

/-- **What an eviction leaves.** -/
theorem leads_evict_dismisses (h : s.Quiet) (required : Option UInt64) :
    Leads (evict required) (fun _ _ => False)
      (fun done s' => s' = s.cleared required ∧
        done.satisfied = (required.isNone || s'.hasRoom required)) s := by
  simp only [evict, leads_bind, leads_now]
  rw [Records.leads_findUnlocked_of_quiet h]
  refine (leads_evictAmong_dismisses required _ {} h).mono (fun _ _ hfalse => hfalse) ?_
  rintro done s' rfl
  simp only [leads_get, leads_pure]
  exact ⟨rfl, trivial⟩

/-- **What a reservation leaves** for a file that has none: room is made, and where it suffices it is taken. -/
theorem leads_reserve_clears (h : s.Quiet) {id : FileId} (kb : UInt64)
    (free : s.account.isReserved id = false) :
    Leads (reserve id kb)
      (fun e s' => s' = s.cleared (some kb) ∧ s'.hasRoom (some kb) = false ∧
        e = .capacityExceeded kb s'.freeKb)
      (fun _ s' => (s.cleared (some kb)).hasRoom (some kb) = true ∧
        s' = { s.cleared (some kb) with account := (s.cleared (some kb)).account.reserve id kb }) s := by
  rw [reserve, leads_bind, leads_get]
  dsimp only
  rw [free, if_neg Bool.false_ne_true, leads_bind, leads_get]
  dsimp only
  cases hroom : s.hasRoom (some kb) with
  | true =>
    rw [Bool.not_true, if_neg Bool.false_ne_true, leads_modify, Site.cleared_of_hasRoom hroom]
    exact ⟨hroom, rfl⟩
  | false =>
    rw [Bool.not_false, if_pos rfl, leads_bind]
    refine (leads_evict_dismisses h (some kb)).mono (fun _ _ hfalse => hfalse.elim) ?_
    rintro done s₁ ⟨rfl, hsatisfied⟩
    rw [Option.isNone_some, Bool.false_or] at hsatisfied
    rw [hsatisfied]
    refine leads_ite.2 ⟨fun hfull => ?_, fun hgranted => ?_⟩
    · simp only [leads_bind, leads_get, leads_throw]
      exact ⟨trivial, by simpa using hfull, trivial⟩
    · rw [leads_modify]
      exact ⟨by simpa using hgranted, rfl⟩

/-- **What a reservation leaves**, whether it is granted or not. -/
theorem leads_reserve_dismisses (h : s.Quiet) (f : FileRecord) :
    Leads (reserve f.fileId f.estimatedKb)
      (fun _ s' => s.grants f = false ∧ s' = s.dismissAll (s.displaced f))
      (fun _ s' => s.grants f = true ∧
        ∃ account, s' = { s.dismissAll (s.displaced f) with account := account }) s := by
  rw [Site.grants, Site.displaced]
  cases hreserved : s.account.isReserved f.fileId with
  | true =>
    rw [reserve, leads_bind, leads_get]
    dsimp only
    rw [hreserved, if_pos rfl, if_pos rfl, leads_pure]
    exact ⟨rfl, s.account, rfl⟩
  | false =>
    rw [if_neg Bool.false_ne_true, Bool.false_or]
    refine (leads_reserve_clears h f.estimatedKb hreserved).mono ?_ ?_
    · rintro e _ ⟨rfl, hfull, -⟩
      exact ⟨hfull, rfl⟩
    · rintro _ _ ⟨hroom, rfl⟩
      exact ⟨hroom, _, rfl⟩

end Room

/-! ### Forgetting references -/

/-- **References are forgotten**: those to the files of a list, and no others. No job is changed. -/
structure Site.Forgets (s : Site) (ids : List FileId) (s' : Site) : Prop where
  references : ∀ id, s'.inventory.references.get? id =
    if id ∈ ids then none else s.inventory.references.get? id
  jobs : s'.inventory.jobs = s.inventory.jobs

namespace Site.Forgets

variable {ids ids' : List FileId} {id : FileId} {r : RequestId}

theorem of_same (references : s'.inventory.references = s.inventory.references)
    (jobs : s'.inventory.jobs = s.inventory.jobs) : s.Forgets [] s' :=
  ⟨fun id => by rw [references, if_neg List.not_mem_nil], jobs⟩

theorem trans {s'' : Site} (h : s.Forgets ids s') (h' : s'.Forgets ids' s'') :
    s.Forgets (ids ++ ids') s'' := by
  refine ⟨fun id => ?_, h'.jobs.trans h.jobs⟩
  simp only [h'.references, h.references, List.mem_append, ite_or]
  split_ifs <;> rfl

theorem refers_iff (h : s.Forgets ids s') :
    s'.inventory.refers id r = true ↔ id ∉ ids ∧ s.inventory.refers id r = true := by
  rw [Inventory.refers, h.references id]
  by_cases hid : id ∈ ids
  · simp [hid]
  · rw [if_neg hid, Inventory.refers]
    exact ⟨fun hr => ⟨hid, hr⟩, And.right⟩

end Site.Forgets

theorem Site.forgets_dismissAll (s : Site) (ids : List FileId) : s.Forgets ids (s.dismissAll ids) := by
  refine ⟨s.references_dismissAll ids, ?_⟩
  induction ids generalizing s with
  | nil => rfl
  | cons id ids ih => rw [dismissAll_cons, ih, inventory_dismiss]; rfl

/-! ### Queueing -/

theorem Site.dismiss_of_flies (s : Site) (inFlight : KeySet FileId) (id : FileId) :
    ({ s with inFlight := inFlight } : Site).dismiss id = { s.dismiss id with inFlight := inFlight } := by
  unfold dismiss
  dsimp only
  split <;> rfl

theorem Site.displacedBy_of_flies (s : Site) (inFlight : KeySet FileId) (required : Option UInt64)
    (ids : List FileId) :
    ({ s with inFlight := inFlight } : Site).displacedBy required ids = s.displacedBy required ids := by
  induction ids generalizing s with
  | nil => rfl
  | cons id rest ih =>
    rw [displacedBy, displacedBy, dismiss_of_flies, ih]
    rfl

/-- Which files are on their way makes no difference to which are displaced. -/
theorem Site.displaced_of_flies (s : Site) (inFlight : KeySet FileId) (f : FileRecord) :
    ({ s with inFlight := inFlight } : Site).displaced f = s.displaced f := by
  rw [displaced, displaced, displacedBy_of_flies]
  rfl

/-- Nor does it to whether there is room. -/
theorem Site.grants_of_flies (s : Site) (inFlight : KeySet FileId) (f : FileRecord) :
    ({ s with inFlight := inFlight } : Site).grants f = s.grants f := by
  have hall : ∀ (ids : List FileId) (s : Site), ({ s with inFlight := inFlight } : Site).dismissAll ids =
      { s.dismissAll ids with inFlight := inFlight } := by
    intro ids
    induction ids with
    | nil => exact fun _ => rfl
    | cons id ids ih => exact fun s => by rw [dismissAll_cons, dismiss_of_flies, ih, dismissAll_cons]
  rw [grants, grants, displaced_of_flies, hall]
  rfl

namespace Transfers

/-- A record that is unlocked keeps its references. -/
theorem leads_unlock_forgets (h : s.Quiet) (f : FileRecord) :
    Leads (unlock f) (fun _ _ => False) (fun _ s' => s.Forgets [] s') s := by
  unfold unlock
  split
  · rw [leads_bind, Records.leads_loadFile_of_quiet h]
    refine leads_ite.2 ⟨fun _ => ?_, fun _ => ?_⟩
    · simp only [leads_bind, leads_now]
      rw [Records.leads_saveFile_of_quiet h]
      exact .of_same rfl rfl
    · rw [leads_pure]
      exact .of_same rfl rfl
  · rw [leads_pure]
    exact .of_same rfl rfl

/-- **Queueing a transfer** forgets the references to what is displaced, whether there is room in the end or
not. -/
theorem leads_queue_forgets (h : s.Quiet) (f : FileRecord) (inFlight : KeySet FileId) :
    Leads (queue f) (fun _ s' => s.grants f = false ∧ s.Forgets (s.displaced f) s')
      (fun _ s' => s.grants f = true ∧ s.Forgets (s.displaced f) s' ∧ s'.inFlight = inFlight)
      { s with inFlight := inFlight } := by
  have hflying : ({ s with inFlight := inFlight } : Site).Quiet := h.of_same rfl rfl rfl
  rw [← s.grants_of_flies inFlight, ← s.displaced_of_flies inFlight]
  suffices hqueue : ∀ {t : Site}, t.Quiet → Leads (queue f)
      (fun _ s' => t.grants f = false ∧ t.Forgets (t.displaced f) s')
      (fun _ s' => t.grants f = true ∧ t.Forgets (t.displaced f) s' ∧ s'.inFlight = t.inFlight) t by
    refine (hqueue hflying).mono ?_ ?_
    · rintro _ s' ⟨hrefused, hforgets⟩
      exact ⟨hrefused, hforgets.references, hforgets.jobs⟩
    · rintro _ s' ⟨hgranted, hforgets, hstay⟩
      exact ⟨hgranted, ⟨hforgets.references, hforgets.jobs⟩, hstay⟩
  intro t ht
  have hdisplaced := t.forgets_dismissAll (t.displaced f)
  have hquiet := ht.dismissAll (t.displaced f)
  simp only [queue, leads_bind, leads_attempt]
  refine (Room.leads_reserve_dismisses ht f).mono ?_ ?_
  · rintro e s₁ ⟨hrefused, rfl⟩
    refine (leads_unlock_forgets hquiet f).mono (fun _ _ hfalse => hfalse.elim) fun _ s₂ h₂ => ?_
    simp only [leaveFlight, leads_modify, leads_throw]
    have hforgets := hdisplaced.trans h₂
    rw [List.append_nil] at hforgets
    exact ⟨hrefused, hforgets.references, hforgets.jobs⟩
  · rintro _ s₁ ⟨hgranted, account, rfl⟩
    have h₁ : ({ t.dismissAll (t.displaced f) with account := account } : Site).Quiet :=
      hquiet.of_same rfl rfl rfl
    rw [Records.leads_saveFile_of_quiet h₁]
    simp only [leads_note, leads_get, leads_join]
    exact ⟨hgranted, ⟨hdisplaced.references, hdisplaced.jobs⟩, t.inFlight_dismissAll _⟩

end Transfers

/-! ### Files asked for and files resumed -/

/-- The record of a file that must be transferred if it is asked for, none if it is on its way or there, or has
failed. -/
def Site.wanted (s : Site) (entry : ManifestEntry) : Option FileRecord :=
  if s.inFlight.contains entry.fileId then none
  else
    match Transfers.needOf entry s.settings.defaultEstimateKb (s.inventory.files.get? entry.fileId) with
    | .settled _ => none
    | .transfer f _ => some f

/-- The files whose references are lost when a file is asked for. -/
def Site.ousted (s : Site) (r : RequestId) (entry : ManifestEntry) : List FileId :=
  match s.wanted entry with
  | none => []
  | some f => (s.attach entry.fileId r).displaced f

/-- The files whose references are lost when files of a list are resumed, one after the other. -/
def Site.oustedBy : List FileRecord → Site → List FileId
  | [], _ => []
  | f :: rest, s =>
    if f.kind.isCatalogue || s.inFlight.contains f.fileId then oustedBy rest s
    else
      s.displaced f ++
        oustedBy rest ((Transfers.queue f).after { s with inFlight := s.inFlight.add f.fileId })

namespace Transfers

/-- **Asking for a file** forgets the references to the files that are ousted. A file that must be transferred is
on its way afterwards exactly if it is given room. -/
theorem leads_ensure_forgets (h : s.Quiet) (r : RequestId) (entry : ManifestEntry)
    (retrievable : entry.kind.isCatalogue = false) :
    Leads (ensure r entry)
      (fun _ _ => ∃ f, s.wanted entry = some f ∧ (s.attach entry.fileId r).grants f = false)
      (fun status s' => (s.attach entry.fileId r).Forgets (s.ousted r entry) s' ∧
        ∀ f, s.wanted entry = some f → (s.attach entry.fileId r).grants f = true ∧
          status = .pending ∧ s'.inFlight.contains f.fileId = true) s := by
  have hattached : ({ s with inventory := s.inventory.addReference entry.fileId r } : Site).Quiet :=
    h.of_same rfl rfl rfl
  simp only [ensure, retrievable, Bool.false_eq_true, if_false, leads_bind]
  rw [Records.leads_addReference_of_quiet h]
  simp only [leads_get, Site.ousted]
  refine leads_ite.2 ⟨fun hflying => ?_, fun hgrounded => ?_⟩
  · have hwanted : s.wanted entry = none := if_pos hflying
    rw [leads_pure, hwanted]
    exact ⟨.of_same rfl rfl, by rintro _ ⟨⟩⟩
  have hwanted : s.wanted entry =
      match needOf entry s.settings.defaultEstimateKb
        ((s.inventory.addReference entry.fileId r).files.get? entry.fileId) with
      | .settled _ => none
      | .transfer f _ => some f := if_neg (ne_true_of_eq_false hgrounded)
  rw [leads_bind, Records.leads_loadFile_of_quiet hattached, hwanted]
  simp only [leads_bind, leads_get]
  cases needOf entry s.settings.defaultEstimateKb
    ((s.inventory.addReference entry.fileId r).files.get? entry.fileId) with
  | settled status =>
    rw [leads_pure]
    exact ⟨.of_same rfl rfl, by rintro _ ⟨⟩⟩
  | transfer f isNew =>
    simp only [enterFlight, leads_bind, leads_modify, leads_attempt]
    refine (leads_queue_forgets hattached f _).mono ?_ ?_
    · rintro e s₁ ⟨hrefused, -⟩
      have hwhich : ∃ g, some f = some g ∧ (s.attach entry.fileId r).grants g = false := ⟨f, rfl, hrefused⟩
      refine leads_ite.2 ⟨fun _ => ?_, fun _ => ?_⟩
      · simp only [leads_bind, leads_throw]
        exact (leads_answer _ s₁).mono (fun _ _ _ => hwhich) fun _ _ _ => hwhich
      · rw [leads_throw]
        exact hwhich
    · rintro _ s₁ ⟨hgranted, hforgets, hstay⟩
      rw [leads_pure]
      refine ⟨hforgets, ?_⟩
      rintro g ⟨⟩
      exact ⟨hgranted, rfl, by rw [hstay]; exact (KeySet.contains_add ..).2 (.inl rfl)⟩

/-- A catalogue is not asked for with success. -/
theorem retrievable_of_ensure_ok {r : RequestId} {entry : ManifestEntry} {status : FileStatus}
    (hok : (ensure r entry).answer s = .ok status) : entry.kind.isCatalogue = false := by
  rw [← Bool.not_eq_true]
  intro hkind
  have hrefused : Leads (ensure r entry) (fun _ _ => True) (fun _ _ => False) s := by
    rw [ensure, hkind, if_pos rfl, leads_bind, leads_throw]
    trivial
  exact hrefused.of_ok hok

/-- A file that is resumed forgets the references to what is displaced for it. -/
theorem forgets_resumed (h : s.Quiet) (f : FileRecord) :
    s.Forgets (s.displaced f) ((queue f).after { s with inFlight := s.inFlight.add f.fileId }) :=
  Leads.after ((leads_queue_forgets h f _).mono (fun _ _ h => h.2) fun _ _ h => h.2.1)

theorem leads_resumeAll_forgets : ∀ (l : List FileRecord) {s : Site}, s.Quiet →
    Leads (resumeAll l) (fun _ _ => False) (fun _ s' => s.Forgets (s.oustedBy l) s') s
  | [], s, h => by
    rw [resumeAll, leads_pure]
    exact .of_same rfl rfl
  | f :: rest, s, h => by
    simp only [resumeAll, leads_bind, leads_get]
    rw [Site.oustedBy]
    refine leads_ite.2 ⟨fun hsettled => ?_, fun hgrounded => ?_⟩
    · rw [hsettled, if_pos rfl]
      exact leads_resumeAll_forgets rest h
    rw [hgrounded, if_neg Bool.false_ne_true]
    have hforgets := forgets_resumed h f
    have horder := (Sending.resumed f (Bool.or_eq_false_iff.1 hgrounded).2).queues.order
    have hrest := leads_resumeAll_forgets rest
      ⟨horder.secluded h.toSecluded, horder.faultless h.faultless⟩
    simp only [enterFlight, leads_bind, leads_modify, leads_attempt]
    refine (leads_answer (queue f) _).mono ?_ ?_
    · rintro e s₁ ⟨-, rfl⟩
      exact hrest.mono (fun _ _ hfalse => hfalse) fun _ _ h₂ => hforgets.trans h₂
    · rintro _ s₁ ⟨-, rfl⟩
      simp only [leads_pure]
      exact hrest.mono (fun _ _ hfalse => hfalse) fun _ _ h₂ => hforgets.trans h₂

end Transfers

/-- What a live job refers to is not ousted. -/
theorem Site.not_mem_ousted_of_live {id : FileId} {r r' : RequestId} {j : Job} (entry : ManifestEntry)
    (refers : (s.attach entry.fileId r').inventory.refers id r = true)
    (kept : s.inventory.jobs.get? r = some j) (live : j.status.isLive = true) :
    id ∉ s.ousted r' entry := by
  unfold ousted
  split
  · exact List.not_mem_nil
  · exact not_mem_displaced_of_live refers kept live

theorem Site.not_mem_oustedBy_of_live {id : FileId} {r : RequestId} {j : Job}
    (live : j.status.isLive = true) : ∀ (l : List FileRecord) {s : Site}, s.Quiet →
    s.inventory.refers id r = true → s.inventory.jobs.get? r = some j → id ∉ s.oustedBy l
  | [], s, h, refers, kept => List.not_mem_nil
  | f :: rest, s, h, refers, kept => by
    rw [oustedBy]
    split
    · exact not_mem_oustedBy_of_live live rest h refers kept
    next hgrounded =>
    rw [Bool.not_eq_true, Bool.or_eq_false_iff] at hgrounded
    have hnot : id ∉ s.displaced f := not_mem_displaced_of_live refers kept live
    have horder := (Sending.resumed f hgrounded.2).queues.order
    have hforgets := Transfers.forgets_resumed h f
    rw [List.mem_append, not_or]
    refine ⟨hnot, not_mem_oustedBy_of_live live rest
      ⟨horder.secluded h.toSecluded, horder.faultless h.faultless⟩
      (hforgets.refers_iff.2 ⟨hnot, refers⟩) ?_⟩
    rw [hforgets.jobs]
    exact kept

/-! ### Asking and resuming -/

/-- **Room is made before a file is kept.** In every depot where no call is refused, whatever the names its
records are kept under:

* a file that is asked for and must be transferred is queued exactly if it is given room;
* when a file is asked for and its status is the answer, the references to the files that are ousted are gone,
  and all others are there; so the request refers to the file exactly if the file is not ousted itself, and it
  does if it is a live job;
* when the files still to come are resumed, the references to the files that are ousted by one of them are gone,
  and all others are there, with those of every live job;
* a file is displaced, for another or for itself, exactly if that has no reservation and there is too little room
  for it until the turn of the file has come, among those that may be evicted. -/
theorem references_after_queueing (h : s.Secluded) (faultless : s.Faultless) :
    (∀ r (entry : ManifestEntry) f, entry.kind.isCatalogue = false → s.wanted entry = some f →
      ((Transfers.ensure r entry).answer s = .ok .pending ↔ (s.attach entry.fileId r).grants f = true)) ∧
    (∀ r entry status, (Transfers.ensure r entry).answer s = .ok status →
      ∀ s', (Transfers.ensure r entry).after s = s' →
        (s.attach entry.fileId r).Forgets (s.ousted r entry) s' ∧
        (s'.inventory.refers entry.fileId r = true ↔ entry.fileId ∉ s.ousted r entry) ∧
        ∀ j, s.inventory.jobs.get? r = some j → j.status.isLive = true →
          s'.inventory.refers entry.fileId r = true) ∧
    (∃ n, Transfers.resumePending.answer s = .ok n ∧
      s.Forgets (s.oustedBy s.inventory.pendingFiles) (Transfers.resumePending.after s) ∧
      ∀ id r j, s.inventory.refers id r = true → s.inventory.jobs.get? r = some j →
        j.status.isLive = true → (Transfers.resumePending.after s).inventory.refers id r = true) ∧
    ∀ (t : Site) (f : FileRecord) (id : FileId), id ∈ t.displaced f ↔
      t.account.isReserved f.fileId = false ∧
      ∃ before after, t.evictable.map FileRecord.fileId = before ++ id :: after ∧
        ∀ k ≤ before.length, (t.dismissAll (before.take k)).hasRoom (some f.estimatedKb) = false := by
  have hquiet : s.Quiet := ⟨h, faultless⟩
  refine ⟨fun r entry f retrievable hwanted => ?_, ?_, ?_, fun t f id => ?_⟩
  · have hleads := Transfers.leads_ensure_forgets hquiet r entry retrievable
    refine ⟨fun hok => ((hleads.of_ok hok).2 f hwanted).1, fun hgranted => ?_⟩
    cases hanswer : (Transfers.ensure r entry).answer s with
    | ok status => rw [((hleads.of_ok hanswer).2 f hwanted).2.1]
    | error e =>
      obtain ⟨g, hg, hrefused⟩ := hleads.of_error hanswer
      obtain rfl := Option.some.inj (hwanted.symm.trans hg)
      exact absurd (hrefused.symm.trans hgranted) Bool.false_ne_true
  · rintro r entry status hok _ rfl
    have hkind := Transfers.retrievable_of_ensure_ok hok
    have hforgets := ((Transfers.leads_ensure_forgets hquiet r entry hkind).of_ok hok).1
    have hrefers : (s.attach entry.fileId r).inventory.refers entry.fileId r = true :=
      (Inventory.refers_addReference ..).2 (.inl ⟨rfl, rfl⟩)
    refine ⟨hforgets, by rw [hforgets.refers_iff, and_iff_left hrefers], fun j hj hlive => ?_⟩
    exact hforgets.refers_iff.2 ⟨Site.not_mem_ousted_of_live entry hrefers hj hlive, hrefers⟩
  · have hresumed : Leads Transfers.resumePending (fun _ _ => False)
        (fun _ s' => s.Forgets (s.oustedBy s.inventory.pendingFiles) s') s := by
      rw [Transfers.resumePending, leads_bind, Records.findPending, Records.leads_read_of_quiet hquiet]
      exact Transfers.leads_resumeAll_forgets _ hquiet
    obtain ⟨n, hok, hforgets⟩ := hresumed.exists_ok
    refine ⟨n, hok, hforgets, fun id r j hrefers hj hlive => ?_⟩
    exact hforgets.refers_iff.2 ⟨Site.not_mem_oustedBy_of_live hlive _ hquiet hrefers hj, hrefers⟩
  · rw [Site.displaced]
    cases t.account.isReserved f.fileId with
    | true => simp
    | false => rw [if_neg Bool.false_ne_true, Site.mem_displacedBy, and_iff_right rfl]

/-- A file of 60 KB that is still to come and may be evicted. -/
def dueFile : FileRecord :=
  { FileRecord.ofEntry ⟨⟨"f"⟩, .spectrum, none, none⟩ 60 with unlockAt := some .epoch }

/-- A depot with a limit of 100 KB, a second into 1970. One file of 60 KB is still to come, and another of 60 KB is
there; both may be evicted. -/
def tightSite : Site where
  settings := { cacheRoot := "cache", limitKb := 100 }
  clock := { hand := 1000 }
  account := { committed := 60 }
  inventory :=
    (Inventory.fresh.saveFile dueFile).saveFile
      { dueFile with fileId := ⟨"g"⟩, sizeKb := some 60, available := true }

/-- Both files go before there is room for the first. -/
theorem Site.displaced_tightSite :
    (tightSite.attach ⟨"f"⟩ ⟨"r"⟩).displaced dueFile = [⟨"f"⟩, ⟨"g"⟩] := by
  have hevictable : (tightSite.attach ⟨"f"⟩ ⟨"r"⟩).evictable.map FileRecord.fileId = [⟨"f"⟩, ⟨"g"⟩] := by
    cbv
  rw [displaced, hevictable]
  decide +kernel

theorem Site.grants_tightSite : (tightSite.attach ⟨"f"⟩ ⟨"r"⟩).grants dueFile = true := by
  rw [grants, displaced_tightSite]
  decide +kernel

theorem ousting_of_tightSite :
    (Transfers.ensure ⟨"r"⟩ ⟨⟨"f"⟩, .spectrum, none, none⟩).answer tightSite = .ok .pending ∧
      (tightSite.attach ⟨"f"⟩ ⟨"r"⟩).Forgets [⟨"f"⟩, ⟨"g"⟩]
        ((Transfers.ensure ⟨"r"⟩ ⟨⟨"f"⟩, .spectrum, none, none⟩).after tightSite) := by
  obtain ⟨hqueued, hasked, -⟩ :=
    references_after_queueing (s := tightSite) ⟨rfl, rfl, rfl, rfl, rfl⟩ (fun _ => rfl)
  have hok := (hqueued ⟨"r"⟩ ⟨⟨"f"⟩, .spectrum, none, none⟩ dueFile rfl (by cbv)).2 Site.grants_tightSite
  have housted : tightSite.ousted ⟨"r"⟩ ⟨⟨"f"⟩, .spectrum, none, none⟩ = [⟨"f"⟩, ⟨"g"⟩] :=
    Site.displaced_tightSite
  obtain ⟨hforgets, -⟩ := hasked _ _ _ hok _ rfl
  exact ⟨hok, housted ▸ hforgets⟩

/-- **A file that is evicted to make room for itself** is on its way, and the request that has asked for it does
not refer to it. -/
theorem queued_file_loses_its_references :
    let ask := Transfers.ensure ⟨"r"⟩ ⟨⟨"f"⟩, .spectrum, none, none⟩
    ask.answer tightSite = .ok .pending ∧ (ask.after tightSite).inFlight.contains ⟨"f"⟩ = true ∧
      (ask.after tightSite).inventory.refers ⟨"f"⟩ ⟨"r"⟩ = false := by
  intro ask
  have hwanted : tightSite.wanted ⟨⟨"f"⟩, .spectrum, none, none⟩ = some dueFile := by cbv
  have hleads := Transfers.leads_ensure_forgets (s := tightSite)
    ⟨⟨rfl, rfl, rfl, rfl, rfl⟩, fun _ => rfl⟩ ⟨"r"⟩ ⟨⟨"f"⟩, .spectrum, none, none⟩ rfl
  have hrefuted : ∀ e, ask.answer tightSite ≠ .error e := by
    intro e he
    obtain ⟨f, hf, hrefused⟩ := hleads.of_error he
    obtain rfl := Option.some.inj (hwanted.symm.trans hf)
    exact absurd (hrefused.symm.trans Site.grants_tightSite) Bool.false_ne_true
  cases hanswer : ask.answer tightSite with
  | error e => exact absurd hanswer (hrefuted e)
  | ok status =>
    obtain ⟨hforgets, hqueued⟩ := hleads.of_ok hanswer
    obtain ⟨-, rfl, hflying⟩ := hqueued dueFile hwanted
    refine ⟨rfl, hflying, ?_⟩
    have housted : tightSite.ousted ⟨"r"⟩ ⟨⟨"f"⟩, .spectrum, none, none⟩ = [⟨"f"⟩, ⟨"g"⟩] :=
      Site.displaced_tightSite
    rw [housted] at hforgets
    rw [← Bool.not_eq_true, hforgets.refers_iff]
    exact fun hrefers => hrefers.1 (.head _)

end Depot
