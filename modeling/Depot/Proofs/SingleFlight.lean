import Depot.Proofs.Flights

/-!
# Single flight

However many ask for a file, and in whatever order transfers make their moves, each file is brought by one
transfer at a time. Where no call of the inventory is refused, what counts as in flight is just that. No
more calls are under way than there are turns, for a turn is taken up only where one is free or where a
transfer gives its own away; and a call is never begun for a file that is there or has failed, for the
record of a file with a transfer is still to come.

## Main statements

* `Site.Calm.size_inFlight` — as many files are in flight as there are transfers.
* `History.turns` — no more turns are taken up than there are, whatever happens.
* `History.callsAreDue` — calls are begun only for files still to come.
* `single_flight` — all of that, in every run.

## Honest scope

An operation is done in one go: what is said holds between any two steps of a run, and each move of a
transfer is a step of its own.
-/

namespace Depot

variable {s s' : Site}

/-! ### As many as are in flight -/

theorem Table.length_keys {κ α : Type} [Ord κ] (t : Table κ α) : t.keys.length = t.size :=
  List.length_map ..

/-- **As many files are in flight as there are transfers**, where no call is refused. -/
theorem Site.Calm.size_inFlight (h : s.Calm) (hb : s.Balanced) :
    s.inFlight.size = s.transfers.length := by
  have hsame : s.inFlight.keys.Perm s.underway := by
    refine (List.perm_ext_iff_of_nodup (Table.nodup_keys _) hb.nodup).2 fun id => ?_
    rw [Table.mem_keys]
    refine ⟨fun hid => ?_, hb.contains_of_underway⟩
    obtain ⟨f, hf, rfl⟩ := h.flights id hid
    exact List.mem_map_of_mem hf
  rw [← Table.length_keys, hsame.length_eq, Site.underway, List.length_map, Site.carried_eq,
    List.length_map]

/-! ### Turns -/

/-- A deed takes up no more turns than there are. -/
theorem Deed.turns (d : Deed s s') :
    turnsOf s'.tasks ≤ max (turnsOf s.tasks) s.settings.maxConcurrent := by
  have hsame : turnsOf s.tasks ≤ max (turnsOf s.tasks) s.settings.maxConcurrent := Nat.le_max_left ..
  cases d with
  | change c =>
    cases c with
    | file c =>
      cases c with
      | evict e =>
        cases e with
        | aside a => cases a; exact hsame
        | evicted => exact hsame
      | queued time =>
        -- The new transfer has not asked for a turn yet.
        refine le_trans ?_ hsame
        rw [turnsOf_append]
        exact le_refl _
      | attached | detached | unlocked | strayed | extended => exact hsame
    | transfer c =>
      cases c with
      | moved tasks log same calls turns => exact turns
      | arrived d place tasks rest turns => exact turns
      | givenUp e tasks rest hopeless turns => exact turns
      | setBack e tasks others rest back hopeful turns => exact turns
      | brokenOff result tasks rest faulty turns => exact turns
    | job c => cases c <;> exact hsame
    | duties tasks same =>
      refine le_trans ?_ hsame
      show (tasks.filterMap Task.transfer?).countP Transfer.holdsTurn ≤ _
      rw [same]
      exact le_refl _
    | warned | told | clocked | spoiled => exact hsame
  | founding r c => cases c <;> exact hsame

/-- **No more turns are taken up than there are**, whatever happens. -/
theorem History.turns (c : History s s') (h : turnsOf s.tasks ≤ s.settings.maxConcurrent) :
    turnsOf s'.tasks ≤ s'.settings.maxConcurrent := by
  induction c with
  | refl => exact h
  | tail _ e ih =>
    cases e with
    | deed d =>
      rw [d.settings]
      exact d.turns.trans (max_le ih (le_refl _))
    | reopened => exact Nat.zero_le _

/-! ### Calls -/

/-- A file is still to be brought: it has not failed, and is not there with a size. -/
def FileRecord.IsDue (f : FileRecord) : Prop :=
  f.failed = false ∧ ¬(f.available = true ∧ f.sizeKb.isSome = true)

/-- With the beginning of each call a log tells the record that was kept then, of a file still to be
brought. -/
def CallsAreDue (log : List Happening) : Prop :=
  ∀ earlier time id source rest, log = earlier ++ .called time id source :: rest →
    ∃ f rest', rest = .begun id (some f) :: rest' ∧ f.IsDue

namespace CallsAreDue

theorem nil : CallsAreDue [] := fun earlier time id source rest h => by
  cases earlier <;> cases h

theorem singleton {h : Happening} (quiet : h.isCall = false) : CallsAreDue [h] := by
  intro earlier time id source rest heq
  cases earlier with
  | nil =>
    obtain ⟨rfl, -⟩ := List.cons.inj heq
    cases quiet
  | cons _ earlier => cases earlier <;> cases (List.cons.inj heq).2

theorem called {f : FileRecord} (due : f.IsDue) (time : Nat) (id : FileId) (source : Option String) :
    CallsAreDue [.called time id source, .begun id (some f)] := by
  intro earlier time' id' source' rest heq
  cases earlier with
  | nil =>
    obtain ⟨hcall, rfl⟩ := List.cons.inj heq
    cases hcall
    exact ⟨f, [], rfl, due⟩
  | cons _ earlier =>
    cases earlier with
    | nil => cases (List.cons.inj heq).2
    | cons _ earlier => cases earlier <;> cases (List.cons.inj (List.cons.inj heq).2).2

theorem append {log more : List Happening} (h : CallsAreDue log) (h' : CallsAreDue more) :
    CallsAreDue (log ++ more) := by
  intro earlier time id source rest heq
  rcases List.append_eq_append_iff.1 heq with ⟨l, rfl, hl⟩ | ⟨l, rfl, hl⟩
  · exact h' l time id source rest hl
  · cases l with
    | nil => exact h' [] time id source rest hl.symm
    | cons c l =>
      -- The call is in the first part, and so is what follows it.
      obtain ⟨rfl, rfl⟩ := List.cons.inj hl
      obtain ⟨f, rest', rfl, hdue⟩ := h earlier time id source l rfl
      exact ⟨f, rest' ++ more, rfl, hdue⟩

end CallsAreDue

/-- A record on its way is of a file still to be brought. -/
theorem Site.Balanced.isDue (h : s.Balanced) {f : FileRecord} (hf : f ∈ s.carried) : f.IsDue := by
  have hpending := h.pending f hf
  simp only [FileRecord.isPending, Bool.and_eq_true, Bool.not_eq_true'] at hpending
  exact ⟨hpending.2, fun hthere => Bool.false_ne_true (hpending.1.symm.trans hthere.1)⟩

/-- **A deed begins calls only for files still to be brought.** -/
theorem Deed.callsAreDue (d : Deed s s') (hb : s.Balanced) (h : CallsAreDue s.log) :
    CallsAreDue s'.log := by
  rcases d.logged with hlog | ⟨happening, hquiet, hlog⟩ | ⟨f, hf, time, source, hlog⟩ <;> rw [hlog]
  · exact h
  · exact h.append (.singleton hquiet)
  · rw [hb.kept f hf]
    exact h.append (.called (hb.isDue hf) time f.fileId source)

theorem History.callsAreDue (c : History s s') (hb : s.Balanced) (h : CallsAreDue s.log) :
    CallsAreDue s'.log := by
  induction c with
  | refl => exact h
  | tail hc e ih =>
    cases e with
    | deed d => exact d.callsAreDue (hb.history hc) ih
    | reopened => exact ih

/-! ### Runs -/

/-- **Single flight.** In every run that begins with a depot just opened, over any inventory, where no call
of it is refused: no file has two transfers; as many files are in flight as there are transfers; no more
transfers take up a turn than there are turns; and every call was begun for a file whose record, as it was
kept then, had not failed and was not there with a size. -/
theorem single_flight (h : s.Secluded) (hn : s.inventory.Named) (ho : s.Opened)
    (faultless : s.Faultless) (silent : s.log = []) (steps : List Step) :
    ((s.run steps).transfers.map fun t => t.record.fileId).Nodup ∧
    (s.run steps).inFlight.size = (s.run steps).transfers.length ∧
    (s.run steps).transfers.countP Transfer.holdsTurn ≤ (s.run steps).settings.maxConcurrent ∧
    ∀ earlier time id source rest, (s.run steps).log = earlier ++ .called time id source :: rest →
      ∃ f rest', rest = .begun id (some f) :: rest' ∧ f.failed = false ∧
        ¬(f.available = true ∧ f.sizeKb.isSome = true) := by
  have hb₀ := ho.balanced hn
  have hrun := Site.run_history ⟨h, hb₀⟩ steps
  have hb := hb₀.history hrun
  refine ⟨?_, ?_, ?_, ?_⟩
  · have hnodup := hb.nodup
    rwa [Site.carried_eq, List.map_map] at hnodup
  · exact ((ho.calm faultless).history hrun).size_inFlight hb
  · refine hrun.turns ?_
    rw [ho.tasks]
    exact Nat.zero_le _
  · refine hrun.callsAreDue hb₀ ?_
    rw [silent]
    exact .nil

/-- While two jobs wait for the same file, one call is under way for it. -/
theorem single_flight_of_two_jobs :
    let s := (Site.blank { cacheRoot := "cache" }).run
      [.create ⟨"j"⟩ .web [⟨⟨"f"⟩, .spectrum, none, none⟩], .move 0,
        .create ⟨"k"⟩ .web [⟨⟨"f"⟩, .spectrum, none, none⟩], .resumePending]
    s.inFlight.size = s.transfers.length ∧ s.transfers.length = 1 := by
  intro s
  obtain ⟨-, hsize, -, -⟩ := single_flight (Site.secluded_blank { cacheRoot := "cache" }) .fresh
    (Site.opened_blank _) (fun _ => rfl) rfl
    [.create ⟨"j"⟩ .web [⟨⟨"f"⟩, .spectrum, none, none⟩], .move 0,
      .create ⟨"k"⟩ .web [⟨⟨"f"⟩, .spectrum, none, none⟩], .resumePending]
  exact ⟨hsize, by decide +kernel⟩

end Depot
