import Depot.Proofs.Displacement
import Depot.Proofs.Quota

/-!
# When room is reserved

A reservation is granted if there is room, or if there is once files have been evicted, as few as will do. So it
is granted exactly if some number of the files that may be evicted would give enough; and where the limit, what
is taken up and what is asked for are below 2^63, that is so exactly if all of them together would.

In an inventory that keeps records under names other than their own, what goes is what is kept under the names of
the files that may be evicted, and so that is what gives room.

An estimate of 2^63 or more is negative in signed words, and is granted wherever the free room is not.

## Main statements

* `Site.used_dismissAll` — what files give back that are evicted by their names.
* `Site.hasRoom_cleared_iff` — there is room after an eviction if some evictions give enough.
* `reservation_granted_iff` — when a reservation is granted, and what comes of one that is not.
* `huge_estimate_is_granted` — an estimate far above the limit.
-/

namespace Depot

open Act

variable {s : Site}

/-! ### What evictions give back -/

/-- What is evicted gives back what is charged for it. -/
theorem Site.committed_dismiss (committed : s.account.committed = s.inventory.availableKb) (id : FileId) :
    (s.dismiss id).account.committed = (s.dismiss id).inventory.availableKb ∧
      (s.dismiss id).account.committed + s.inventory.chargedKb id = s.account.committed := by
  have hdropped := s.inventory.availableKb_deleteFile id
  rw [inventory_dismiss, dismiss]
  cases hkept : s.inventory.files.get? id with
  | none =>
    have hnothing : s.inventory.chargedKb id = 0 := by rw [Inventory.chargedKb, hkept]; rfl
    dsimp only
    omega
  | some f =>
    have hcharged : s.inventory.chargedKb id = f.chargedKb := by rw [Inventory.chargedKb, hkept]; rfl
    dsimp only [Account.discharge]
    omega

/-- **What files give back that are evicted by their names**: what is charged for what is kept under them. -/
theorem Site.used_dismissAll (committed : s.account.committed = s.inventory.availableKb) (ids : List FileId) :
    (s.dismissAll ids).account.used + s.inventory.chargedKbUnder ids = s.account.used := by
  induction ids generalizing s with
  | nil => rfl
  | cons id ids ih =>
    obtain ⟨hone, hcharged⟩ := committed_dismiss committed id
    have hrest := ih (s := s.dismiss id) hone
    have hreserved : (s.dismiss id).account.reserved = s.account.reserved := by
      rw [Account.reserved, reservations_dismiss, Account.reserved]
    have hused : (s.dismiss id).account.used + s.inventory.chargedKb id = s.account.used := by
      rw [Account.used, Account.used, hreserved]
      omega
    rw [dismissAll_cons, Inventory.chargedKbUnder_cons, ← inventory_dismiss]
    omega

/-- What the first of the files that may be evicted give back. -/
def Site.givenKb (s : Site) (k : Nat) : Nat :=
  s.inventory.chargedKbUnder ((s.evictable.take k).map FileRecord.fileId)

/-- What they all give back. -/
def Site.evictableKb (s : Site) : Nat := s.inventory.chargedKbUnder (s.evictable.map FileRecord.fileId)

theorem Site.givenKb_le (s : Site) (k : Nat) : s.givenKb k ≤ s.evictableKb :=
  s.inventory.chargedKbUnder_mono (List.map_subset _ (List.take_subset ..))

theorem Site.givenKb_length (s : Site) : s.givenKb s.evictable.length = s.evictableKb := by
  rw [givenKb, List.take_length, evictableKb]

theorem Site.evictableKb_le_used (committed : s.account.committed = s.inventory.availableKb) :
    s.evictableKb ≤ s.account.used := by
  have hall := used_dismissAll committed (s.evictable.map FileRecord.fileId)
  rw [evictableKb]
  omega

/-- Records that are kept under their own names give back what they are charged. -/
theorem Site.givenKb_of_named (hn : s.inventory.Named) (k : Nat) : s.givenKb k = s.firstKb k :=
  have hl := hn.lists_take_evictable k
  s.inventory.chargedKbUnder_of_kept hl.nodup hl.kept

theorem Site.evictableKb_of_named (hn : s.inventory.Named) : s.evictableKb = chargedKbOf s.evictable :=
  s.inventory.chargedKbUnder_of_kept hn.lists_evictable.nodup hn.lists_evictable.kept

/-! ### Room after an eviction -/

/-- **There is room after an eviction** if some number of files to be evicted gives enough. -/
theorem Site.hasRoom_cleared_iff (committed : s.account.committed = s.inventory.availableKb)
    (required : Option UInt64) :
    (s.cleared required).hasRoom required = true ↔ ∃ k ≤ s.evictable.length,
      Fits s.settings.limitKb.toNat (s.account.used - s.givenKb k) required := by
  have hfits : ∀ k, (s.dismissAll ((s.evictable.map FileRecord.fileId).take k)).hasRoom required = true ↔
      Fits s.settings.limitKb.toNat (s.account.used - s.givenKb k) required := by
    intro k
    have hused := used_dismissAll committed ((s.evictable.take k).map FileRecord.fileId)
    rw [← List.map_take, hasRoom_iff_fits, settings_dismissAll, givenKb, Nat.eq_sub_of_add_eq hused]
  rw [cleared, hasRoom_dismissAll_displacedBy, List.length_map]
  exact exists_congr fun k => and_congr_right fun _ => hfits k

/-- Below 2^63 there is room after an eviction exactly if all evictions together give enough. -/
theorem Site.exists_fits_iff (committed : s.account.committed = s.inventory.availableKb) {kb : UInt64}
    (limit : 2 * s.settings.limitKb.toNat < UInt64.size) (used : 2 * s.account.used < UInt64.size)
    (small : 2 * kb.toNat < UInt64.size) :
    (∃ k ≤ s.evictable.length, Fits s.settings.limitKb.toNat (s.account.used - s.givenKb k) (some kb)) ↔
      (kb.toNat : ℤ) ≤ s.settings.limitKb.toNat - s.account.used + s.evictableKb := by
  have hall := evictableKb_le_used committed
  have hplain : ∀ k, Fits s.settings.limitKb.toNat (s.account.used - s.givenKb k) (some kb) ↔
      (kb.toNat : ℤ) ≤ s.settings.limitKb.toNat - s.account.used + s.givenKb k := by
    intro k
    have hle := s.givenKb_le k
    rw [fits_iff limit (by omega) small]
    omega
  constructor
  · rintro ⟨k, -, hfit⟩
    have hle := s.givenKb_le k
    have hk := (hplain k).1 hfit
    omega
  · intro hkb
    refine ⟨_, le_refl _, (hplain _).2 ?_⟩
    rwa [givenKb_length]

/-! ### Granting -/

/-- **When a reservation is granted.** In every depot whose committed kilobytes are those of the files that are
there, whatever the names its records are kept under, where no call is refused: room for a file that has no
reservation is granted exactly if some number of the files that may be evicted, in their order, gives back enough
of it in signed words. Otherwise the answer is that the room does not suffice, with what is free then, and nothing
is reserved. As long as the limit, what is taken up and what is asked for are below 2^63, room is granted exactly
if what is asked for is no more than the limit leaves and all files give back that may be evicted, and then no
more is taken up than the limit. What files give back is what is charged for what is kept under their names; where
records are kept under their own names, that is their own sizes. -/
theorem reservation_granted_iff (h : s.Secluded) (faultless : s.Faultless)
    (committed : s.account.committed = s.inventory.availableKb) {id : FileId}
    (free : s.account.isReserved id = false) (kb : UInt64) :
    (∀ f, f ∈ s.evictable ↔ f ∈ s.inventory.files.values ∧ (∃ u, f.unlockAt = some u ∧ u < s.clock.now) ∧
      s.account.isReserved f.fileId = false ∧
      ∀ r j, s.inventory.refers f.fileId r = true → s.inventory.jobs.get? r = some j →
        j.status.isLive = false) ∧
    ((Room.reserve id kb).answer s = .ok () ↔ ∃ k ≤ s.evictable.length,
      Fits s.settings.limitKb.toNat (s.account.used - s.givenKb k) (some kb)) ∧
    ((Room.reserve id kb).answer s = .ok () →
      ((Room.reserve id kb).after s).account.reservations = s.account.reservations.insert id kb) ∧
    ((Room.reserve id kb).answer s ≠ .ok () →
      (Room.reserve id kb).answer s = .error (.capacityExceeded kb ((Room.reserve id kb).after s).freeKb) ∧
      ((Room.reserve id kb).after s).account.reservations = s.account.reservations) ∧
    (2 * s.settings.limitKb.toNat < UInt64.size → 2 * s.account.used < UInt64.size →
      2 * kb.toNat < UInt64.size →
      ((Room.reserve id kb).answer s = .ok () ↔
        (kb.toNat : ℤ) ≤ s.settings.limitKb.toNat - s.account.used + s.evictableKb) ∧
      ((Room.reserve id kb).answer s = .ok () →
        ((Room.reserve id kb).after s).account.used ≤ s.settings.limitKb.toNat)) ∧
    (s.inventory.Named → (∀ f, f ∈ s.evictable ↔ s.MayGo f) ∧
      (s.evictable.map FileRecord.fileId).Nodup ∧ (∀ k, s.givenKb k = s.firstKb k) ∧
      s.evictableKb = chargedKbOf s.evictable) := by
  have hreserve := Room.leads_reserve_clears ⟨h, faultless⟩ kb free
  have hcleared := s.hasRoom_cleared_iff committed (some kb)
  have hreservations : (s.cleared (some kb)).account.reservations = s.account.reservations :=
    s.reservations_dismissAll _
  have hgranted : (Room.reserve id kb).answer s = .ok () ↔ (s.cleared (some kb)).hasRoom (some kb) = true := by
    refine ⟨fun hok => (hreserve.of_ok hok).1, fun hroom => ?_⟩
    cases hanswer : (Room.reserve id kb).answer s with
    | ok => rfl
    | error e =>
      obtain ⟨heq, hfull, -⟩ := hreserve.of_error hanswer
      rw [heq, hroom] at hfull
      cases hfull
  refine ⟨fun f => Site.mem_evictable_iff, hgranted.trans hcleared, fun hok => ?_, fun hnot => ?_,
    fun limit used small => ⟨?_, fun hok => ?_⟩, fun hn => ?_⟩
  · rw [(hreserve.of_ok hok).2, ← hreservations]
    rfl
  · cases hanswer : (Room.reserve id kb).answer s with
    | ok => exact absurd hanswer hnot
    | error e =>
      obtain ⟨heq, -, rfl⟩ := hreserve.of_error hanswer
      exact ⟨rfl, by rw [heq, hreservations]⟩
  · exact (hgranted.trans hcleared).trans (Site.exists_fits_iff committed limit used small)
  · obtain ⟨hroom, hafter⟩ := hreserve.of_ok hok
    have hfree : (s.cleared (some kb)).account.isReserved id = false := by
      rw [Account.isReserved, hreservations]
      exact free
    have hused : (s.cleared (some kb)).account.used ≤ s.account.used :=
      Nat.le.intro (Site.used_dismissAll committed _)
    rw [Site.hasRoom_iff_fits, Site.cleared, Site.settings_dismissAll, ← Site.cleared,
      fits_iff limit (by omega) small] at hroom
    rw [hafter]
    show ((s.cleared (some kb)).account.reserve id kb).used ≤ _
    rw [Account.used_reserve kb hfree]
    omega
  · exact ⟨fun f => Site.mem_evictable hn, hn.lists_evictable.nodup, Site.givenKb_of_named hn,
      Site.evictableKb_of_named hn⟩

theorem room_is_made_for_a_file :
    (Room.reserve ⟨"h"⟩ 50).answer (twoFileSite 60 30) = .ok () ∧
      ((Room.reserve ⟨"h"⟩ 50).after (twoFileSite 60 30)).account.used ≤ 100 := by
  have hfree : (twoFileSite 60 30).account.isReserved ⟨"h"⟩ = false := rfl
  obtain ⟨-, -, -, -, hplain, -⟩ := reservation_granted_iff ⟨rfl, rfl, rfl, rfl, rfl⟩ (fun _ => rfl)
    (by decide +kernel) hfree 50
  obtain ⟨hiff, hwithin⟩ := hplain (by decide +kernel) (by decide +kernel) (by decide +kernel)
  have hgranted := hiff.2 (by decide +kernel)
  exact ⟨hgranted, hwithin hgranted⟩

/-- **An estimate of 2^63 KB is granted** in an empty depot with a limit of 100 KB, and then far more is taken up
than the limit. -/
theorem huge_estimate_is_granted :
    let s := Site.blank { cacheRoot := "cache", limitKb := 100 }
    ((Room.reserve ⟨"f"⟩ 9223372036854775808).answer s).toOption = some () ∧
      ((Room.reserve ⟨"f"⟩ 9223372036854775808).after s).account.used = 9223372036854775808 ∧
      (s.settings.limitKb.toNat - s.account.used : ℤ) + chargedKbOf s.evictable = 100 := by
  decide +kernel

end Depot
