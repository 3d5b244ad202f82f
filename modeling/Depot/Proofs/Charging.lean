import Depot.Proofs.Run

/-!
# What a depot charges

The room that a depot counts as taken is the room that its files take and will take, at every moment: the
sizes of those that are there, and the estimates of those on their way. Nothing is charged twice, and
nothing is forgotten, wherever a call of the inventory is refused and however often the depot is opened
again.

## Main statements

* `charges_are_exact` — so it is in every run that begins with a depot just opened, over any inventory.
-/

namespace Depot

variable {s : Site}

/-- **What is taken up is exact.** In every run that begins with a depot just opened: the room counted as
taken is that of the files that are there and the estimates of those with a transfer; the files with a
reservation are those with a transfer; none has two transfers; and each transfer carries the record that is
kept. -/
theorem charges_are_exact (h : s.Secluded) (hn : s.inventory.Named) (ho : s.Opened)
    (steps : List Step) :
    (s.run steps).account.used = (s.run steps).inventory.availableKb +
        ((s.run steps).transfers.map fun t => t.record.estimatedKb.toNat).sum ∧
      (∀ id, (s.run steps).account.isReserved id = true ↔
        ∃ t ∈ (s.run steps).transfers, t.record.fileId = id) ∧
      ((s.run steps).transfers.map fun t => t.record.fileId).Nodup ∧
      ∀ t ∈ (s.run steps).transfers,
        (s.run steps).inventory.files.get? t.record.fileId = some t.record := by
  have hb := (ho.balanced hn).history (Site.run_history ⟨h, ho.balanced hn⟩ steps)
  refine ⟨?_, fun id => ?_, ?_, fun t ht => ?_⟩
  · rw [hb.used_eq, Site.carried_eq, List.map_map]
    rfl
  · rw [hb.isReserved_iff, Site.carried_eq]
    simp only [List.mem_map, exists_exists_and_eq_and]
  · have hnodup := hb.nodup
    rwa [Site.carried_eq, List.map_map] at hnodup
  · exact hb.kept _ (List.mem_map_of_mem ht)

/-- While the only file of a job is on its way, its estimate is all that is charged. -/
theorem charges_of_one_transfer :
    ((Site.blank { cacheRoot := "cache" }).run
      [.create ⟨"j"⟩ .web [⟨⟨"f"⟩, .spectrum, none, some 60⟩], .move 0]).account.used = 60 := by
  have hexact := (charges_are_exact (Site.secluded_blank { cacheRoot := "cache" }) .fresh
    (Site.opened_blank _) [.create ⟨"j"⟩ .web [⟨⟨"f"⟩, .spectrum, none, some 60⟩], .move 0]).1
  rw [hexact]
  decide +kernel

end Depot
