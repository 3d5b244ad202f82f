import Depot.Proofs.Calls
import Depot.Proofs.Eviction
import Depot.Proofs.Quota

/-!
# What a commit charges

The size of a file that has arrived is charged in place of what was reserved for it. That is all that is
replaced: a file that was there before, and is committed once more, is charged with its new size beside the
old one. So a commit keeps the count of what is taken up exactly if the file was charged nothing for what was
kept of it.

Nothing is asked of the depot here. A commit may be made anywhere, whatever calls are refused and wherever
the inventory is kept, and by anyone, not only at the end of a transfer.

## Main statements

* `Account.used_commit_add` — a commit replaces the reservation of its file.
* `Room.leads_commit` — what a commit changes, in any depot.
* `commit_charges_on_top` — what is taken up after a commit.
* `second_commit_charges_again` — a file that is committed twice is charged twice.
-/

namespace Depot

open Act

variable {s : Site}

/-! ### Accounts -/

/-- The kilobytes reserved for a file, none if it has no reservation. -/
def Account.reservedKb (a : Account) (id : FileId) : Nat :=
  ((a.reservations.get? id).map UInt64.toNat).getD 0

/-- **A commit replaces the reservation of its file** by the size that is charged. -/
theorem Account.used_commit_add (a : Account) (id : FileId) (kb : UInt64) :
    (a.commit id kb).used + a.reservedKb id = a.used + kb.toNat := by
  have hrest : (a.release id).reserved + a.reservedKb id = a.reserved :=
    Table.total_erase UInt64.toNat a.reservations id
  rw [used_commit]
  show a.committed + (a.release id).reserved + kb.toNat + _ = a.committed + a.reserved + _
  omega

/-- A file is charged nothing exactly if no record of it is kept that is charged. -/
theorem Inventory.chargedKb_eq_zero_iff {v : Inventory} {id : FileId} :
    v.chargedKb id = 0 ↔ ∀ f, v.files.get? id = some f → f.chargedKb = 0 := by
  unfold Inventory.chargedKb
  cases v.files.get? id <;> simp

/-! ### Commits anywhere -/

namespace Records

/-- **A record is kept**, or the call fails; neither changes what is charged. -/
theorem leads_saveFile_anywhere (f : FileRecord) (s : Site) :
    Leads (saveFile f) (fun _ s' => s'.account = s.account)
      (fun _ s' => s'.inventory = s.inventory.saveFile f ∧ s'.account = s.account) s := by
  simp only [saveFile, leads_bind]
  refine (leads_reach_stays .saveFile s).mono ?_ fun _ s₁ hstays => ?_
  · rintro e s₁ ⟨-, hstays⟩
    rw [hstays.eq]
  · rw [hstays.eq]
    refine (leads_change_anywhere _ _).mono ?_ ?_
    · rintro e _ ⟨disk, -, rfl⟩
      rfl
    · rintro _ _ ⟨disk, -, rfl⟩
      exact ⟨rfl, rfl⟩

end Records

/-- **A commit** keeps the record and charges its size, or it fails and charges nothing. -/
theorem Room.leads_commit {f : FileRecord} {kb : UInt64} (size : f.sizeKb = some kb) (s : Site) :
    Leads (commit f) (fun _ s' => s'.account = s.account)
      (fun _ s' => s'.inventory = s.inventory.saveFile f ∧
        s'.account = s.account.commit f.fileId kb) s := by
  simp only [commit, size, leads_bind]
  refine (Records.leads_saveFile_anywhere f s).mono (fun _ _ h => h) ?_
  rintro _ s₁ ⟨hkept, hsame⟩
  rw [leads_modify]
  exact ⟨hkept, by rw [hsame]⟩

/-- Where no call is refused a record with a size is committed. -/
theorem Room.commit_of_quiet (h : s.Quiet) {f : FileRecord} {kb : UInt64} (size : f.sizeKb = some kb) :
    (commit f).answer s = .ok () := by
  have hcommitted : Leads (commit f) (fun _ _ => False) (fun _ _ => True) s := by
    simp only [commit, size, leads_bind]
    rw [Records.leads_saveFile_of_quiet h, leads_modify]
    trivial
  obtain ⟨_, hok, -⟩ := hcommitted.exists_ok
  exact hok

/-! ### What is taken up -/

/-- **A commit charges on top of what was charged before.** In every depot in which the room taken up is that
of the files that are there and what is reserved, and for every record of a file that is there with a size:
where no call is refused it is committed; where it is committed its size is charged in place of what was
reserved for it, and no other reservation changes; but what the file was charged for the record kept before
stays charged. So what is taken up is then too much by that, and it is again the room of the files that are
there and what is reserved exactly if no record was kept of the file that is charged. Where the commit fails
nothing is charged. -/
theorem commit_charges_on_top {f : FileRecord} {kb : UInt64} (there : f.available = true)
    (size : f.sizeKb = some kb)
    (balanced : s.account.used = s.inventory.availableKb + s.account.reserved) :
    (s.Quiet → (Room.commit f).answer s = .ok ()) ∧
    (∀ e, (Room.commit f).answer s = .error e → ((Room.commit f).after s).account = s.account) ∧
    ∀ s', (Room.commit f).answer s = .ok () → (Room.commit f).after s = s' →
      s'.inventory = s.inventory.saveFile f ∧
      s'.account.reservations = s.account.reservations.erase f.fileId ∧
      s'.account.used + s.account.reservedKb f.fileId = s.account.used + kb.toNat ∧
      s'.account.used =
        s'.inventory.availableKb + s'.account.reserved + s.inventory.chargedKb f.fileId ∧
      (s'.account.used = s'.inventory.availableKb + s'.account.reserved ↔
        ∀ f₀, s.inventory.files.get? f.fileId = some f₀ → f₀.chargedKb = 0) := by
  have hleads := Room.leads_commit size s
  refine ⟨fun h => Room.commit_of_quiet h size, fun e he => hleads.of_error he, ?_⟩
  rintro s' hok rfl
  obtain ⟨hinventory, haccount⟩ := hleads.of_ok hok
  have hcharged : f.chargedKb = kb.toNat := by simp [FileRecord.chargedKb, there, size]
  have hkept := s.inventory.availableKb_saveFile f
  have hcommitted : s.account.committed = s.inventory.availableKb := Nat.add_right_cancel balanced
  have hused : (s.account.commit f.fileId kb).used =
      s.account.committed + kb.toNat + (s.account.commit f.fileId kb).reserved := rfl
  rw [hinventory, haccount]
  refine ⟨rfl, rfl, s.account.used_commit_add f.fileId kb, by omega, ?_⟩
  rw [← Inventory.chargedKb_eq_zero_iff]
  omega

/-- A file of a size that is there. -/
def sizedFile (kb : UInt64) : FileRecord :=
  { FileRecord.ofEntry ⟨⟨"f"⟩, .spectrum, none, none⟩ 0 with sizeKb := some kb, available := true }

/-- In a depot with files of 60 KB and 30 KB, in which 20 KB more are reserved for the first, that file is committed
with 45 KB: 75 KB are there then, and 135 KB are taken up. -/
theorem charge_of_renewed_file :
    let s := { twoFileSite 60 30 with account := (twoFileSite 60 30).account.reserve ⟨"f"⟩ 20 }
    (Room.commit (sizedFile 45)).answer s = .ok () ∧
      ((Room.commit (sizedFile 45)).after s).account.used = 135 := by
  intro s
  obtain ⟨hcommitted, -, hcharge⟩ := commit_charges_on_top (s := s) (f := sizedFile 45) rfl rfl
    (by decide +kernel)
  have hok := hcommitted ⟨⟨rfl, rfl, rfl, rfl, rfl⟩, fun _ => rfl⟩
  obtain ⟨-, -, -, hused, -⟩ := hcharge _ hok rfl
  refine ⟨hok, hused.trans ?_⟩
  decide +kernel

/-- **A file that is committed twice** is charged twice: 60 KB are there, nothing is reserved, and 120 KB are
taken up. -/
theorem second_commit_charges_again :
    let s := Site.blank { cacheRoot := "cache" }
    let s₁ := (Room.commit (sizedFile 60)).after s
    let s₂ := (Room.commit (sizedFile 60)).after s₁
    s₁.account.used = s₁.inventory.availableKb + s₁.account.reserved ∧
      ((Room.commit (sizedFile 60)).answer s₁).toOption = some () ∧
      s₂.account.used = 120 ∧ s₂.inventory.availableKb = 60 ∧ s₂.account.reserved = 0 := by
  decide +kernel

end Depot
