import Depot.Proofs.Disk
import Depot.Proofs.Records
import Depot.Site.Jobs

/-!
# Calls in any depot

What is asked of no depot: its inventory may be kept in a file, any call may be refused, and those who are
told of one job may change others. A change of the inventory is made in memory in any case, whether it can be
written or not; and whoever is told of a job, the notice is delivered, and what is done about it changes the
inventory and its file only.

## Main statements

* `Records.leads_change_anywhere` — what a change comes to.
* `Act.leads_tell_anywhere` — what comes of a notice.
-/

namespace Depot

open Act

variable {s s' : Site}

namespace Records

/-- An inventory that is written to its file is left as it is, and nothing is gone from the disk. -/
theorem leads_persist (s : Site) :
    Leads persist (fun _ s' => ∃ disk, s.disk.Keeps disk ∧ s' = { s with disk := disk })
      (fun _ s' => ∃ disk, s.disk.Keeps disk ∧ s' = { s with disk := disk }) s := by
  simp only [persist, leads_bind, leads_get]
  split
  · rw [leads_pure]
    exact ⟨s.disk, .refl _, rfl⟩
  · rw [leads_bind, leads_set]
    refine leads_ite.2 ⟨fun _ => ?_, fun _ => ?_⟩
    · rw [leads_throw]
      exact ⟨_, s.disk.replace_keeps _ _, rfl⟩
    · rw [leads_pure]
      exact ⟨_, s.disk.replace_keeps _ _, rfl⟩

/-- **An inventory is changed** in memory, whether it can be written or not; nothing is gone from the disk. -/
theorem leads_change_anywhere (f : Inventory → Inventory) (s : Site) :
    Leads (change f)
      (fun _ s' => ∃ disk, s.disk.Keeps disk ∧ s' = { s with inventory := f s.inventory, disk := disk })
      (fun _ s' => ∃ disk, s.disk.Keeps disk ∧ s' = { s with inventory := f s.inventory, disk := disk })
      s := by
  simp only [change, leads_bind, leads_modify]
  exact leads_persist { s with inventory := f s.inventory }

end Records

/-! ### Telling -/

/-- The jobs of a list have been given a status from outside, and nothing else has happened. -/
def Site.Overwritten (s s' : Site) : Prop :=
  ∃ inventory disk, s' = { s with inventory := inventory, disk := disk }

namespace Site.Overwritten

theorem refl (s : Site) : s.Overwritten s := ⟨s.inventory, s.disk, rfl⟩

theorem trans {s'' : Site} (h : s.Overwritten s') (h' : s'.Overwritten s'') : s.Overwritten s'' := by
  obtain ⟨_, _, rfl⟩ := h
  obtain ⟨inventory, disk, rfl⟩ := h'
  exact ⟨inventory, disk, rfl⟩

end Site.Overwritten

theorem Records.leads_overwriteStatus_anywhere (r : RequestId) (status : JobStatus) (s : Site) :
    Leads (overwriteStatus r status) (fun _ _ => False) (fun _ s' => s.Overwritten s') s := by
  rw [overwriteStatus, leads_bind, leads_get]
  refine leads_ite.2 ⟨fun _ => ?_, fun _ => ?_⟩
  · rw [leads_forgive]
    refine (leads_change_anywhere _ s).mono ?_ ?_ <;> rintro _ _ ⟨disk, -, rfl⟩ <;>
      exact ⟨_, disk, rfl⟩
  · rw [leads_pure]
    exact .refl s

theorem Act.leads_overwriteAll : ∀ (l : List (RequestId × JobStatus)) (s : Site),
    Leads (l.forM fun x => Records.overwriteStatus x.1 x.2) (fun _ _ => False)
      (fun _ s' => s.Overwritten s') s
  | [], s => by
    rw [List.forM, leads_pure]
    exact .refl s
  | x :: rest, s => by
    rw [List.forM, leads_bind]
    refine (Records.leads_overwriteStatus_anywhere x.1 x.2 s).mono (fun _ _ => False.elim) fun _ s₁ h => ?_
    exact (leads_overwriteAll rest s₁).mono (fun _ _ => False.elim) fun _ _ => h.trans

/-- **A notice is delivered**, in any depot; what comes of it are statuses given from outside. -/
theorem Act.leads_tell_anywhere (n : Notice) (s : Site) :
    Leads (tell n) (fun _ _ => False)
      (fun _ s' => Site.Overwritten { s with log := s.log ++ [.told n] } s') s := by
  simp only [tell, leads_bind, leads_note, leads_get]
  exact leads_overwriteAll _ _

end Depot
