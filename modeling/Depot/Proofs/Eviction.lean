import Depot.Proofs.Quiet

/-!
# Which files are evicted

Where no call is refused an eviction of many files can be said in advance. The files that may be evicted are
read off the site before the first of them goes: their unlock time has passed, they are not reserved, and no
live job refers to them. None of this changes for the others when one goes, so the files that are evicted are
the first ones of one list (`Site.evictable`), and as few of them as give enough room (`Site.toll`).

How much room is enough is reckoned in signed words, and so is the difference of the limit and what is taken
up, which may come round. As long as the limit, what is taken up and what is asked for are all below 2^63 it is
the plain difference.

## Main statements

* `Room.leads_evict_iff`, `Room.leads_reserve_iff` — where an eviction and a reservation lead, exactly.
* `Site.isLeast_toll` — no fewer files would do.
* `evictions_are_shortest_prefixes` — what evictions and reservations evict, and what they leave alone.
* `overfull_site_evicts_nothing` — a site that takes up 2^63 KB or more passes for one with room.
-/

namespace Depot

open Act Time

variable {s s' : Site} {E : Failure → Site → Prop}

/-! ### Files that may be evicted -/

/-- Whether a live job refers to a file. -/
def Inventory.hasLiveReferrer (v : Inventory) (id : FileId) : Bool :=
  (v.referrers id).any fun r => (v.jobs.get? r).any fun j => j.status.isLive

/-- Whether nothing but its unlock time can keep a file from being evicted. -/
def Site.isFree (s : Site) (f : FileRecord) : Bool :=
  !s.account.isReserved f.fileId && !s.inventory.hasLiveReferrer f.fileId

/-- The files that may be evicted, in the order in which they go. -/
def Site.evictable (s : Site) : List FileRecord :=
  (s.inventory.unlockedBefore s.clock.now).filter s.isFree

theorem Inventory.hasLiveReferrer_eq_false {v : Inventory} {id : FileId} :
    v.hasLiveReferrer id = false ↔
      ∀ r j, v.refers id r = true → v.jobs.get? r = some j → j.status.isLive = false := by
  simp only [hasLiveReferrer, List.any_eq_false, Option.any_eq_true, not_exists, not_and,
    Bool.not_eq_true, mem_referrers]
  exact ⟨fun h r j hr hj => h r hr j hj, fun h r hr j hj => h r j hr hj⟩

theorem Site.isFree_eq_true {f : FileRecord} :
    s.isFree f = true ↔ s.account.isReserved f.fileId = false ∧
      s.inventory.hasLiveReferrer f.fileId = false := by
  rw [isFree, Bool.and_eq_true, Bool.not_eq_true', Bool.not_eq_true']

/-- **A file may be evicted**: it is kept, its unlock time has passed, it is not reserved, and no live job
refers to it. -/
structure Site.MayGo (s : Site) (f : FileRecord) : Prop where
  kept : s.inventory.files.get? f.fileId = some f
  unlocked : ∃ u, f.unlockAt = some u ∧ u < s.clock.now
  free : s.account.isReserved f.fileId = false
  unpinned : ∀ r j, s.inventory.refers f.fileId r = true → s.inventory.jobs.get? r = some j →
    j.status.isLive = false

theorem Site.mem_evictable (hn : s.inventory.Named) {f : FileRecord} : f ∈ s.evictable ↔ s.MayGo f := by
  rw [evictable, List.mem_filter, Inventory.mem_unlockedBefore, Site.isFree_eq_true,
    Inventory.hasLiveReferrer_eq_false]
  constructor
  · rintro ⟨⟨hmem, hunlocked⟩, hfree, hunpinned⟩
    obtain ⟨id, hid⟩ := Table.mem_values.1 hmem
    exact ⟨by rwa [hn.files id f hid], hunlocked, hfree, hunpinned⟩
  · intro h
    exact ⟨⟨Table.mem_values.2 ⟨_, h.kept⟩, h.unlocked⟩, h.free, h.unpinned⟩

theorem Inventory.Named.lists_evictable (hn : s.inventory.Named) : s.Lists s.evictable := by
  have hl := hn.lists_unlocked
  have hsub : s.evictable.Sublist (s.inventory.unlockedBefore s.clock.now) := List.filter_sublist
  exact ⟨hl.nodup.sublist (hsub.map _), fun f hf => hl.kept f (hsub.subset hf),
    fun f hf => hl.unlocked f (hsub.subset hf)⟩

instance : Std.TransCmp Inventory.unlockOrder :=
  inferInstanceAs
    (Std.TransCmp (compareLex (compareOn FileRecord.unlockAt) (compareOn FileRecord.fileId)))

/-- The files that may be evicted go one after the other: none comes at the same place as another. -/
theorem Inventory.Named.pairwise_evictable (hn : s.inventory.Named) :
    s.evictable.Pairwise fun f g => Inventory.unlockOrder f g = .lt := by
  have hordered : s.evictable.Pairwise fun f g => (Inventory.unlockOrder f g).isLE :=
    (pairwise_sortBy _).sublist List.filter_sublist
  refine pairwise_lt_of_nodup hordered hn.lists_evictable.nodup fun f g hfg => ?_
  have hid : compareOn FileRecord.fileId f g = .eq := (compareLex_eq_eq.1 hfg).2
  exact Std.LawfulEqOrd.eq_of_compare hid

/-! ### Letting files go -/

/-- The disk without the bytes of a file, if they may be removed. -/
def Site.diskWithout (s : Site) (f : FileRecord) : Disk :=
  match f.location with
  | none => s.disk
  | some location =>
    if Path.isRemovable s.settings.cacheRoot location then (s.disk.remove location).1 else s.disk

/-- The site when a file has been evicted. -/
def Site.letGo (s : Site) (f : FileRecord) : Site :=
  { s with
    inventory := s.inventory.deleteFile f.fileId
    disk := s.diskWithout f
    account := s.account.discharge f.chargedKb
    log := s.log ++ [.evicted f s.clock.now (s.inventory.deleteFile f.fileId)] }

/-- The site when the files of a list have been evicted. -/
def Site.letGoAll (s : Site) (l : List FileRecord) : Site := l.foldl Site.letGo s

@[simp] theorem Site.letGoAll_nil (s : Site) : s.letGoAll [] = s := rfl

@[simp] theorem Site.letGoAll_cons (s : Site) (f : FileRecord) (l : List FileRecord) :
    s.letGoAll (f :: l) = (s.letGo f).letGoAll l := rfl

/-- Evictions change the inventory, the disk, the account and the log, and nothing else. -/
theorem Site.letGoAll_eq (s : Site) (l : List FileRecord) :
    s.letGoAll l =
      { s with
        inventory := (s.letGoAll l).inventory, disk := (s.letGoAll l).disk
        account := (s.letGoAll l).account, log := (s.letGoAll l).log } := by
  induction l generalizing s with
  | nil => rfl
  | cons f l ih =>
    rw [letGoAll_cons, ih]
    rfl

theorem Site.Quiet.letGo (h : s.Quiet) (f : FileRecord) : (s.letGo f).Quiet := h.of_same rfl rfl rfl

@[simp] theorem Site.jobs_letGoAll (s : Site) (l : List FileRecord) :
    (s.letGoAll l).inventory.jobs = s.inventory.jobs := by
  induction l generalizing s with
  | nil => rfl
  | cons f l ih => exact ih (s.letGo f)

@[simp] theorem Site.reservations_letGoAll (s : Site) (l : List FileRecord) :
    (s.letGoAll l).account.reservations = s.account.reservations := by
  induction l generalizing s with
  | nil => rfl
  | cons f l ih => exact ih (s.letGo f)

/-- The records of the files that go are dropped, and no others. -/
theorem Site.files_letGoAll (s : Site) (l : List FileRecord) (id : FileId) :
    (s.letGoAll l).inventory.files.get? id =
      if id ∈ l.map FileRecord.fileId then none else s.inventory.files.get? id := by
  induction l generalizing s with
  | nil => rfl
  | cons f l ih =>
    have hone : (s.letGo f).inventory.files.get? id =
        if id = f.fileId then none else s.inventory.files.get? id := Inventory.get?_deleteFile ..
    simp only [letGoAll_cons, ih, hone, List.map_cons, List.mem_cons, ite_or]
    split_ifs <;> rfl

/-- The references to the files that go are dropped, and no others. -/
theorem Site.references_letGoAll (s : Site) (l : List FileRecord) (id : FileId) :
    (s.letGoAll l).inventory.references.get? id =
      if id ∈ l.map FileRecord.fileId then none else s.inventory.references.get? id := by
  induction l generalizing s with
  | nil => rfl
  | cons f l ih =>
    have hone : (s.letGo f).inventory.references.get? id =
        if id = f.fileId then none else s.inventory.references.get? id := Table.get?_erase ..
    simp only [letGoAll_cons, ih, hone, List.map_cons, List.mem_cons, ite_or]
    split_ifs <;> rfl

/-- What files of a list are charged. -/
def chargedKbOf (l : List FileRecord) : Nat := (l.map FileRecord.chargedKb).sum

/-- Of the committed kilobytes an evicted file gives back what it was charged. -/
theorem Site.committed_letGo {f : FileRecord} (kept : s.inventory.files.get? f.fileId = some f)
    (committed : s.account.committed = s.inventory.availableKb) :
    (s.letGo f).account.committed = (s.letGo f).inventory.availableKb ∧
      (s.letGo f).account.committed + f.chargedKb = s.account.committed := by
  have hdropped := s.inventory.availableKb_deleteFile f.fileId
  have hcharged := s.inventory.chargedKb_of_kept kept
  show s.account.committed - f.chargedKb = (s.inventory.deleteFile f.fileId).availableKb ∧
    s.account.committed - f.chargedKb + f.chargedKb = _
  omega

/-- The files that go give back what they were charged. -/
theorem Site.committed_letGoAll {l : List FileRecord} (hl : s.Lists l)
    (committed : s.account.committed = s.inventory.availableKb) :
    (s.letGoAll l).account.committed = (s.letGoAll l).inventory.availableKb ∧
      (s.letGoAll l).account.committed + chargedKbOf l = s.account.committed := by
  induction l generalizing s with
  | nil => exact ⟨committed, rfl⟩
  | cons f l ih =>
    obtain ⟨hone, hcharged⟩ := committed_letGo (hl.kept f (.head _)) committed
    obtain ⟨hall, hrest⟩ := ih (s := s.letGo f) (hl.deleteFile rfl rfl) hone
    refine ⟨hall, ?_⟩
    rw [letGoAll_cons, chargedKbOf, List.map_cons, List.sum_cons, ← chargedKbOf]
    omega

theorem Site.used_letGoAll {l : List FileRecord} (hl : s.Lists l)
    (committed : s.account.committed = s.inventory.availableKb) :
    (s.letGoAll l).account.used + chargedKbOf l = s.account.used := by
  have hcommitted := (committed_letGoAll hl committed).2
  rw [Account.used, Account.used, Account.reserved, Account.reserved, reservations_letGoAll]
  omega

/-! ### How many files go -/

/-- How many files of a list go, in its order, before there is enough room. -/
def Site.toll (s : Site) (required : Option UInt64) : List FileRecord → Nat
  | [] => 0
  | f :: rest => if s.hasRoom required then 0 else (s.letGo f).toll required rest + 1

/-- The files that go when room is required. -/
def Site.outgoing (s : Site) (required : Option UInt64) : List FileRecord :=
  s.evictable.take (s.toll required s.evictable)

/-- The site when they have gone. -/
def Site.shed (s : Site) (required : Option UInt64) : Site := s.letGoAll (s.outgoing required)

theorem Site.toll_of_hasRoom {required : Option UInt64} (h : s.hasRoom required = true)
    (l : List FileRecord) : s.toll required l = 0 := by
  cases l with
  | nil => rfl
  | cons => rw [toll, if_pos h]

theorem Site.shed_of_hasRoom {required : Option UInt64} (h : s.hasRoom required = true) :
    s.shed required = s := by
  rw [shed, outgoing, toll_of_hasRoom h, List.take_zero, letGoAll_nil]

/-- **No fewer would do**: so many files go as are needed for enough room, or all of them. -/
theorem Site.isLeast_toll (s : Site) (required : Option UInt64) (l : List FileRecord) :
    IsLeast {k | l.length ≤ k ∨ (s.letGoAll (l.take k)).hasRoom required = true}
      (s.toll required l) := by
  induction l generalizing s with
  | nil => exact ⟨.inl (le_refl _), fun k _ => Nat.zero_le k⟩
  | cons f l ih =>
    rw [toll]
    split
    · next hroom => exact ⟨.inr hroom, fun k _ => Nat.zero_le k⟩
    · next hfull =>
      obtain ⟨henough, hleast⟩ := ih (s.letGo f)
      refine ⟨henough.imp Nat.succ_le_succ id, fun k hk => ?_⟩
      cases k with
      | zero => exact (hk.resolve_left (Nat.not_succ_le_zero _) |> hfull).elim
      | succ k => exact Nat.succ_le_succ (hleast (hk.imp Nat.le_of_succ_le_succ id))

theorem Site.toll_le (s : Site) (required : Option UInt64) (l : List FileRecord) :
    s.toll required l ≤ l.length :=
  (s.isLeast_toll required l).2 (.inl (le_refl _))

theorem Site.length_outgoing (s : Site) (required : Option UInt64) :
    (s.outgoing required).length = s.toll required s.evictable :=
  List.length_take_of_le (s.toll_le required _)

theorem Inventory.Named.lists_take_evictable (hn : s.inventory.Named) (k : Nat) :
    s.Lists (s.evictable.take k) := by
  have hl := hn.lists_evictable
  have hsub : (s.evictable.take k).Sublist s.evictable := List.take_sublist ..
  exact ⟨hl.nodup.sublist (hsub.map _), fun f hf => hl.kept f (hsub.subset hf),
    fun f hf => hl.unlocked f (hsub.subset hf)⟩

/-! ### Following an eviction -/

namespace Room

theorem leads_anyLive_of_quiet : ∀ (rs : List RequestId) {s : Site}, s.Quiet → ∀ {Q : Bool → Site → Prop},
    (Leads (anyLive rs) E Q s ↔
      Q (rs.any fun r => (s.inventory.jobs.get? r).any fun j => j.status.isLive) s)
  | [], s, _, Q => by rw [anyLive, leads_pure]; rfl
  | r :: rest, s, h, Q => by
    have hrest := leads_anyLive_of_quiet rest h (Q := Q)
    rw [anyLive, leads_bind, Records.leads_loadJob_of_quiet h, List.any_cons]
    cases s.inventory.jobs.get? r with
    | none => rw [hrest, Option.any_none, Bool.false_or]
    | some job =>
      rw [Option.any_some]
      cases hlive : job.status.isLive with
      | true => simp only [hlive, if_true, leads_pure, Bool.true_or]
      | false => simp only [hlive, Bool.false_eq_true, if_false, hrest, Bool.false_or]

theorem leads_isPinned_of_quiet (h : s.Quiet) (id : FileId) {Q : Bool → Site → Prop} :
    Leads (isPinned id) E Q s ↔ Q (s.inventory.hasLiveReferrer id) s := by
  rw [isPinned, leads_bind, Records.leads_findReferrers_of_quiet h, leads_anyLive_of_quiet _ h]
  rfl

theorem leads_eraseBytes_iff (f : FileRecord) {Q : Unit → Site → Prop} :
    Leads (eraseBytes f) E Q s ↔ Q () { s with disk := s.diskWithout f } := by
  rw [eraseBytes, leads_modify, Site.diskWithout]
  cases f.location with
  | none => rfl
  | some location => dsimp only; split <;> rfl

theorem leads_evictFile_of_quiet (h : s.Quiet) {f : FileRecord}
    (kept : s.inventory.files.get? f.fileId = some f) {Q : Option Nat → Site → Prop} :
    Leads (evictFile f.fileId) E Q s ↔ Q (some f.chargedKb) (s.letGo f) := by
  rw [evictFile, leads_bind, Records.leads_deleteFile_of_quiet h, kept]
  simp only [leads_bind]
  rw [leads_eraseBytes_iff]
  simp only [leads_modify, leads_now, leads_get, leads_note, leads_pure]
  rfl

/-- That one file goes makes no difference to whether another may go. -/
theorem isFree_letGo {f g : FileRecord} (ne : g.fileId ≠ f.fileId) : (s.letGo f).isFree g = s.isFree g := by
  have hreferrers : (s.inventory.deleteFile f.fileId).referrers g.fileId =
      s.inventory.referrers g.fileId := by
    rw [Inventory.referrers, Inventory.referrers, Inventory.deleteFile, Table.get?_erase, if_neg ne]
  rw [Site.isFree, Inventory.hasLiveReferrer,
    show (s.letGo f).inventory = s.inventory.deleteFile f.fileId from rfl, hreferrers]
  rfl

theorem filter_isFree_letGo {f : FileRecord} {rest : List FileRecord} (hl : s.Lists (f :: rest)) :
    rest.filter (s.letGo f).isFree = rest.filter s.isFree := by
  refine List.filter_congr fun g hg => isFree_letGo fun heq => ?_
  exact (List.nodup_cons.1 hl.nodup).1 (heq ▸ List.mem_map_of_mem hg)

/-- What has been done when more files have gone. -/
def Reclaim.and (done : Reclaim) (l : List FileRecord) : Reclaim :=
  { done with filesEvicted := done.filesEvicted + l.length, freedKb := done.freedKb + chargedKbOf l }

theorem Reclaim.and_cons (done : Reclaim) (f : FileRecord) (l : List FileRecord) :
    done.and (f :: l) =
      Reclaim.and { done with filesEvicted := done.filesEvicted + 1, freedKb := done.freedKb + f.chargedKb }
        l := by
  simp only [Reclaim.and, chargedKbOf, List.length_cons, List.map_cons, List.sum_cons, Nat.add_assoc,
    Nat.add_comm l.length 1]

/-- **Where evictions lead**: of the files of a list that are free the first ones go, so many as are
needed. -/
theorem leads_evictAmong_iff (required : Option UInt64) :
    ∀ (l : List FileRecord) (done : Reclaim) {s : Site}, s.Quiet → s.Lists l →
      ∀ {Q : Reclaim → Site → Prop}, (Leads (evictAmong required l done) E Q s ↔
        Q (done.and ((l.filter s.isFree).take (s.toll required (l.filter s.isFree))))
          (s.letGoAll ((l.filter s.isFree).take (s.toll required (l.filter s.isFree)))))
  | [], done, s, h, hl, Q => by
    rw [evictAmong, leads_pure]
    rfl
  | f :: rest, done, s, h, hl, Q => by
    have hskip := leads_evictAmong_iff required rest done h hl.tail (Q := Q)
    simp only [evictAmong, leads_bind, leads_get]
    cases hroom : s.hasRoom required with
    | true =>
      rw [if_pos rfl, leads_pure, Site.toll_of_hasRoom hroom, List.take_zero]
      rfl
    | false =>
    rw [if_neg Bool.false_ne_true]
    simp only [leads_bind, leads_get]
    cases hreserved : s.account.isReserved f.fileId with
    | true =>
      have hnot : ¬s.isFree f = true := by simp [Site.isFree, hreserved]
      rw [if_pos rfl, List.filter_cons_of_neg hnot, hskip]
    | false =>
    rw [if_neg Bool.false_ne_true, leads_bind, leads_isPinned_of_quiet h]
    cases hlive : s.inventory.hasLiveReferrer f.fileId with
    | true =>
      have hnot : ¬s.isFree f = true := by simp [Site.isFree, hlive]
      rw [if_pos rfl, List.filter_cons_of_neg hnot, hskip]
    | false =>
      have hfree : s.isFree f = true := Site.isFree_eq_true.2 ⟨hreserved, hlive⟩
      have hgone := leads_evictAmong_iff required rest
        { done with filesEvicted := done.filesEvicted + 1, freedKb := done.freedKb + f.chargedKb }
        (h.letGo f) (hl.deleteFile rfl rfl) (Q := Q)
      rw [filter_isFree_letGo hl] at hgone
      rw [if_neg Bool.false_ne_true, leads_bind, leads_evictFile_of_quiet h (hl.kept f (.head _))]
      rw [List.filter_cons_of_pos hfree, Site.toll, hroom, if_neg Bool.false_ne_true,
        List.take_succ_cons, Reclaim.and_cons, Site.letGoAll_cons]
      exact hgone

/-- What is answered when room was required. -/
def reclaimed (s : Site) (required : Option UInt64) : Reclaim :=
  { filesEvicted := (s.outgoing required).length
    freedKb := chargedKbOf (s.outgoing required)
    satisfied := required.isNone || (s.shed required).hasRoom required }

@[simp] theorem satisfied_reclaimed (s : Site) (kb : UInt64) :
    (reclaimed s (some kb)).satisfied = (s.shed (some kb)).hasRoom (some kb) := by
  simp only [reclaimed, Option.isNone_some, Bool.false_or]

/-- **Where an eviction leads.** -/
theorem leads_evict_iff (h : s.Quiet) (hn : s.inventory.Named) (required : Option UInt64)
    {Q : Reclaim → Site → Prop} :
    Leads (evict required) E Q s ↔ Q (reclaimed s required) (s.shed required) := by
  simp only [evict, leads_bind, leads_now]
  rw [Records.leads_findUnlocked_of_quiet h, leads_evictAmong_iff required _ {} h hn.lists_unlocked]
  simp only [leads_get, leads_pure, Reclaim.and, Nat.zero_add, reclaimed, Site.shed, Site.outgoing,
    Site.evictable]

/-- **Where a reservation leads.** -/
theorem leads_reserve_iff (h : s.Quiet) (hn : s.inventory.Named) {id : FileId} (kb : UInt64)
    (free : s.account.isReserved id = false) {Q : Unit → Site → Prop} :
    Leads (reserve id kb) E Q s ↔
      ((s.shed (some kb)).hasRoom (some kb) = true →
        Q () { s.shed (some kb) with account := (s.shed (some kb)).account.reserve id kb }) ∧
      ((s.shed (some kb)).hasRoom (some kb) = false →
        E (.capacityExceeded kb (s.shed (some kb)).freeKb) (s.shed (some kb))) := by
  rw [reserve, leads_bind, leads_get]
  dsimp only
  rw [free, if_neg Bool.false_ne_true, leads_bind, leads_get]
  dsimp only
  cases hroom : s.hasRoom (some kb) with
  | true =>
    rw [Bool.not_true, if_neg Bool.false_ne_true, leads_modify, Site.shed_of_hasRoom hroom, hroom]
    simp
  | false =>
    rw [Bool.not_false, if_pos rfl, leads_bind, leads_evict_iff h hn]
    simp only [reclaimed, Option.isNone_some, Bool.false_or]
    cases (s.shed (some kb)).hasRoom (some kb) <;> simp

end Room

/-! ### The shortest prefix -/

/-- Whether there is the room that is required, in signed words; there is never as much as can be had. -/
def Fits (limitKb usedKb : Nat) (required : Option UInt64) : Prop :=
  ∃ kb, required = some kb ∧ signed64 kb.toNat ≤ freeRoom limitKb usedKb

/-- Below 2^63 there is room exactly if what is required is no more than the limit leaves. -/
theorem fits_iff {limitKb usedKb : Nat} {kb : UInt64} (limit : 2 * limitKb < UInt64.size)
    (used : 2 * usedKb < UInt64.size) (small : 2 * kb.toNat < UInt64.size) :
    Fits limitKb usedKb (some kb) ↔ (kb.toNat : ℤ) ≤ limitKb - usedKb := by
  simp only [Fits, Option.some.injEq, exists_eq_left', freeRoom_of_lt limit used, signed64_of_lt small]

theorem Site.hasRoom_iff_fits {required : Option UInt64} :
    s.hasRoom required = true ↔ Fits s.settings.limitKb.toNat s.account.used required := by
  cases required with
  | none => simp [hasRoom, Fits]
  | some kb =>
    simp only [Fits, Option.some.injEq, exists_eq_left']
    rw [hasRoom, decide_eq_true_iff, freeKb]

/-- What the first of the files that may be evicted are charged. -/
def Site.firstKb (s : Site) (k : Nat) : Nat := chargedKbOf (s.evictable.take k)

theorem Site.used_letGoAll_take (hn : s.inventory.Named)
    (committed : s.account.committed = s.inventory.availableKb) (k : Nat) :
    (s.letGoAll (s.evictable.take k)).account.used = s.account.used - s.firstKb k := by
  have hused := used_letGoAll (hn.lists_take_evictable k) committed
  rw [firstKb]
  omega

/-- **What an eviction has done**: the shortest beginning of the files that may be evicted is gone that gives
enough room, and nothing else has changed. -/
structure Site.Sheds (s : Site) (required : Option UInt64) (done : Room.Reclaim) (s' : Site) : Prop where
  shortest : IsLeast
    {k | s.evictable.length ≤ k ∨ Fits s.settings.limitKb.toNat (s.account.used - s.firstKb k) required}
    done.filesEvicted
  files : ∀ id, s'.inventory.files.get? id =
    if id ∈ (s.evictable.take done.filesEvicted).map FileRecord.fileId then none
    else s.inventory.files.get? id
  references : ∀ id, s'.inventory.references.get? id =
    if id ∈ (s.evictable.take done.filesEvicted).map FileRecord.fileId then none
    else s.inventory.references.get? id
  jobs : s'.inventory.jobs = s.inventory.jobs
  reservations : s'.account.reservations = s.account.reservations
  freed : s'.account.used + done.freedKb = s.account.used
  satisfied : done.satisfied = true ↔
    required = none ∨ Fits s.settings.limitKb.toNat s'.account.used required

theorem Site.sheds_shed (hn : s.inventory.Named)
    (committed : s.account.committed = s.inventory.availableKb) (required : Option UInt64) :
    s.Sheds required (Room.reclaimed s required) (s.shed required) := by
  have hcount : (Room.reclaimed s required).filesEvicted = s.toll required s.evictable :=
    s.length_outgoing required
  have hsettings : (s.shed required).settings = s.settings := by rw [shed, letGoAll_eq]
  refine ⟨?_, fun id => ?_, fun id => ?_, jobs_letGoAll .., reservations_letGoAll .., ?_, ?_⟩
  · have hleast := s.isLeast_toll required s.evictable
    simp only [hasRoom_iff_fits, used_letGoAll_take hn committed] at hleast
    simp only [show ∀ l, (s.letGoAll l).settings = s.settings from fun l => by rw [letGoAll_eq]] at hleast
    rwa [hcount]
  · rw [hcount]
    exact files_letGoAll ..
  · rw [hcount]
    exact references_letGoAll ..
  · exact used_letGoAll (hn.lists_take_evictable _) committed
  · rw [← hsettings, ← hasRoom_iff_fits]
    show (required.isNone || (s.shed required).hasRoom required) = true ↔ _
    rw [Bool.or_eq_true, Option.isNone_iff_eq_none]

/-- **Evictions take the shortest prefix.** In every depot whose records are kept under their names and whose
committed kilobytes are those of the files that are there, where no call is refused: files may be evicted
whose unlock time is before now, that are not reserved and that no live job refers to, and they go by their
unlock times and names. Where room is asked for, and where a reservation finds too little of it, the fewest
of them go that give enough room, or all of them; where all that can be had is asked for, all of them go.
What is enough is reckoned in signed words; as long as the limit, what is taken up and what is asked for are
below 2^63, it is the difference of the limit and what is taken up. -/
theorem evictions_are_shortest_prefixes (h : s.Secluded) (faultless : s.Faultless)
    (hn : s.inventory.Named) (committed : s.account.committed = s.inventory.availableKb) :
    (∀ f, f ∈ s.evictable ↔ s.MayGo f) ∧
    (s.evictable.Pairwise fun f g => Inventory.unlockOrder f g = .lt) ∧
    (∀ kb : UInt64, ∀ usedKb, 2 * s.settings.limitKb.toNat < UInt64.size → 2 * usedKb < UInt64.size →
      2 * kb.toNat < UInt64.size → (Fits s.settings.limitKb.toNat usedKb (some kb) ↔
        (kb.toNat : ℤ) ≤ s.settings.limitKb.toNat - usedKb)) ∧
    (∀ kb, ∃ done, (Room.reclaim kb).answer s = .ok done ∧
      s.Sheds (some kb) done ((Room.reclaim kb).after s)) ∧
    (∃ done, Room.purge.answer s = .ok done ∧ s.Sheds none done (Room.purge.after s) ∧
      done.filesEvicted = s.evictable.length) ∧
    ∀ id kb, s.account.isReserved id = false → s.hasRoom (some kb) = false →
      ∃ done s', s.Sheds (some kb) done s' ∧
        (done.satisfied = true → (Room.reserve id kb).answer s = .ok () ∧
          (Room.reserve id kb).after s = { s' with account := s'.account.reserve id kb }) ∧
        (done.satisfied = false → (Room.reserve id kb).answer s = .error (.capacityExceeded kb s'.freeKb) ∧
          (Room.reserve id kb).after s = s') := by
  have hquiet : s.Quiet := ⟨h, faultless⟩
  have hsheds := s.sheds_shed hn committed
  have hevict := fun required => (Room.leads_evict_iff hquiet hn required).1 (leads_answer _ s)
  refine ⟨fun f => Site.mem_evictable hn, hn.pairwise_evictable, ?_, fun kb => ?_, ?_, fun id kb free _ => ?_⟩
  · intro kb usedKb limit used small
    exact fits_iff limit used small
  · obtain ⟨hanswer, hafter⟩ := hevict (some kb)
    exact ⟨_, hanswer, hafter ▸ hsheds (some kb)⟩
  · obtain ⟨hanswer, hafter⟩ := hevict none
    refine ⟨_, hanswer, hafter ▸ hsheds none, ?_⟩
    obtain ⟨hall | ⟨_, hnone, _⟩, hleast⟩ := (hsheds none).shortest
    · exact le_antisymm (hleast (.inl (le_refl _))) hall
    · cases hnone
  · obtain ⟨hgranted, hdenied⟩ := (Room.leads_reserve_iff hquiet hn kb free).1 (leads_answer _ s)
    refine ⟨_, _, hsheds (some kb), ?_⟩
    rw [Room.satisfied_reclaimed]
    refine ⟨fun hroom => ?_, fun hfull => ?_⟩
    · obtain ⟨hanswer, hafter⟩ := hgranted hroom
      exact ⟨hanswer, hafter.symm⟩
    · obtain ⟨hanswer, hafter⟩ := hdenied hfull
      exact ⟨hanswer, hafter.symm⟩

/-- A depot with a limit of 100 KB, a second into 1970, and two files in it: one that may be evicted and one
that is locked. -/
def twoFileSite (kb lockedKb : UInt64) : Site where
  settings := { cacheRoot := "cache", limitKb := 100 }
  clock := { hand := 1000 }
  account := { committed := kb.toNat + lockedKb.toNat }
  inventory :=
    (Inventory.fresh.saveFile
      { FileRecord.ofEntry ⟨⟨"f"⟩, .spectrum, none, none⟩ 0 with
        sizeKb := some kb, available := true, unlockAt := some .epoch }).saveFile
      { FileRecord.ofEntry ⟨⟨"g"⟩, .spectrum, none, none⟩ 0 with
        sizeKb := some lockedKb, available := true }

theorem shedding_of_one_file :
    (Room.reclaim 50).answer (twoFileSite 60 30) =
      .ok { filesEvicted := 1, freedKb := 60, satisfied := true } ∧
    (twoFileSite 60 30).Sheds (some 50) { filesEvicted := 1, freedKb := 60, satisfied := true }
      ((Room.reclaim 50).after (twoFileSite 60 30)) := by
  obtain ⟨-, -, -, hreclaim, -⟩ := evictions_are_shortest_prefixes (s := twoFileSite 60 30)
    ⟨rfl, rfl, rfl, rfl, rfl⟩ (fun _ => rfl) ((Inventory.Named.fresh.saveFile _).saveFile _)
    (by decide +kernel)
  obtain ⟨done, hanswer, hsheds⟩ := hreclaim 50
  have hdone : ((Room.reclaim 50).answer (twoFileSite 60 30)).toOption =
      some { filesEvicted := 1, freedKb := 60, satisfied := true } := by decide +kernel
  rw [hanswer] at hdone
  obtain rfl := Option.some.inj hdone
  exact ⟨hanswer, hsheds⟩

/-- **Where 2^63 KB or more are taken up** there seems to be room: nothing is evicted, although a file may be and
far more is taken up than the limit. -/
theorem overfull_site_evicts_nothing :
    let s := twoFileSite 9223372036854775807 9223372036854775807
    s.evictable.length = 1 ∧ s.settings.limitKb.toNat < s.account.used ∧
      ((Room.reclaim 50).answer s).toOption = some { filesEvicted := 0, freedKb := 0, satisfied := true } := by
  decide +kernel

end Depot
