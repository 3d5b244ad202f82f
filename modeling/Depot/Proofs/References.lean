import Depot.Proofs.Quiet
import Depot.Proofs.Run

/-!
# References and unlock times

A request refers to a file before the file has a record. If there turns out to be no room for it, the
reference is taken back where the file was unknown, and otherwise the record is unlocked. So a file is in
order again when it has been asked for, whatever came of it: it has a record if anyone refers to it, and if
it is not in flight it may be evicted at some time. Nothing is referred to that is not there, and nothing
stays for ever.

## Main statements

* `Transfers.Reply.tidy` — every file is in order when a file has been asked for.
* `Errand.tidy` — and after every other errand.
* `references_never_dangle` — so it is in every run.
-/

namespace Depot

open Act Time

variable {s s' : Site} {id : FileId}

/-! ### References to one file -/

theorem KeySet.size_add_ne_zero (rs : KeySet RequestId) (r : RequestId) : (rs.add r).size ≠ 0 := by
  intro hsize
  obtain ⟨a, ha⟩ := Table.contains_eq_true.1 ((KeySet.contains_add rs r r).2 (.inl rfl))
  have hmem := (Table.get?_eq_some_iff _ _ _).1 ha
  rw [List.eq_nil_of_length_eq_zero hsize] at hmem
  cases hmem

theorem Inventory.get?_addReference (v : Inventory) (id id' : FileId) (r : RequestId) :
    (v.addReference id r).references.get? id' =
      if id' = id then some (((v.references.get? id).getD .empty : KeySet _).add r)
      else v.references.get? id' :=
  Table.get?_insert ..

theorem Inventory.get?_removeReference_of_ne (v : Inventory) {id id' : FileId} (h : id' ≠ id)
    (r : RequestId) : (v.removeReference id r).references.get? id' = v.references.get? id' := by
  unfold removeReference
  cases v.references.get? id with
  | none => rfl
  | some rs =>
    dsimp only
    split
    · exact (Table.get?_erase ..).trans (if_neg h)
    · exact (Table.get?_insert ..).trans (if_neg h)

/-- When the only request that refers to a file no longer does, the set is gone. -/
theorem Inventory.get?_removeReference_of_only {v : Inventory} {r : RequestId}
    (only : v.references.get? id = some (KeySet.add .empty r)) :
    (v.removeReference id r).references.get? id = none := by
  have hsize : ((KeySet.add .empty r).erase r : KeySet RequestId).size = 0 := by
    rw [KeySet.erase_add rfl]
    rfl
  rw [removeReference, only]
  dsimp only
  rw [if_pos hsize]
  exact (Table.get?_erase ..).trans (if_pos rfl)

namespace Inventory

/-- The requests that refer to a file, as a set. -/
def referring (v : Inventory) (id : FileId) : KeySet RequestId := (v.references.get? id).getD .empty

/-- Let the requests of a set refer to a file, and no others; a file without any has no set. -/
def setReferring (v : Inventory) (id : FileId) (rs : KeySet RequestId) : Inventory :=
  { v with
    references := if rs.size = 0 then v.references.erase id else v.references.insert id rs }

theorem get?_setReferring (v : Inventory) (id id' : FileId) (rs : KeySet RequestId) :
    (v.setReferring id rs).references.get? id' =
      if id' = id then (if rs.size = 0 then none else some rs) else v.references.get? id' := by
  unfold setReferring
  dsimp only
  split
  · exact Table.get?_erase ..
  · exact Table.get?_insert ..

theorem referring_setReferring (v : Inventory) (id : FileId) (rs : KeySet RequestId) :
    (v.setReferring id rs).referring id = rs := by
  rw [referring, get?_setReferring, if_pos rfl]
  split
  · next hsize =>
    rw [Option.getD_none]
    exact Table.ext_get? fun r => by rw [Table.get?, Table.get?, List.eq_nil_of_length_eq_zero hsize]; rfl
  · rfl

/-- Of two sets that are given to a file the second counts. -/
theorem setReferring_setReferring (v : Inventory) (id : FileId) (rs rs' : KeySet RequestId) :
    (v.setReferring id rs).setReferring id rs' = v.setReferring id rs' := by
  have hsame : ((v.setReferring id rs).setReferring id rs').references =
      (v.setReferring id rs').references := by
    refine Table.ext_get? fun id' => ?_
    simp only [get?_setReferring]
    split <;> rfl
  exact congrArg (fun references => ({ v with references := references } : Inventory)) hsame

theorem addReference_eq_setReferring (v : Inventory) (id : FileId) (r : RequestId) :
    v.addReference id r = v.setReferring id ((v.referring id).add r) := by
  rw [setReferring, if_neg (KeySet.size_add_ne_zero _ _)]
  rfl

theorem removeReference_eq_setReferring (v : Inventory) (id : FileId) (r : RequestId) :
    v.removeReference id r = v.setReferring id ((v.referring id).erase r) := by
  rw [removeReference, setReferring, referring]
  cases h : v.references.get? id with
  | some rs => dsimp only [Option.getD_some]; split <;> rfl
  | none =>
    have hempty : (Table.erase .empty r : KeySet RequestId).size = 0 := rfl
    rw [Option.getD_none, if_pos hempty, Table.erase_of_get?_eq_none h]

/-- A request whose reference has ended does not refer to the file. -/
theorem refers_removeReference_self (v : Inventory) (id : FileId) (r : RequestId) :
    (v.removeReference id r).refers id r = false := by
  rw [removeReference_eq_setReferring, refers, get?_setReferring, if_pos rfl]
  split
  · rfl
  · rw [Option.map_some, Option.getD_some, Bool.eq_false_iff, ne_eq, KeySet.contains_erase]
    exact fun h => h.1 rfl

/-- Two requests may refer to a file in either order. -/
theorem addReference_comm (v : Inventory) (id : FileId) (r₁ r₂ : RequestId) :
    (v.addReference id r₁).addReference id r₂ = (v.addReference id r₂).addReference id r₁ := by
  simp only [addReference_eq_setReferring, setReferring_setReferring, referring_setReferring]
  refine congrArg (v.setReferring id) (Table.ext_get? fun r => ?_)
  simp only [KeySet.add, Table.get?_insert]
  split_ifs <;> rfl

/-- The references of two requests may end in either order. -/
theorem removeReference_comm (v : Inventory) (id : FileId) (r₁ r₂ : RequestId) :
    (v.removeReference id r₁).removeReference id r₂ = (v.removeReference id r₂).removeReference id r₁ := by
  simp only [removeReference_eq_setReferring, setReferring_setReferring, referring_setReferring]
  refine congrArg (v.setReferring id) (Table.ext_get? fun r => ?_)
  simp only [Table.get?_erase]
  split_ifs <;> rfl

/-- A reference that is to end may be made before another ends or after. -/
theorem removeReference_addReference (v : Inventory) (id : FileId) (r₁ r₂ : RequestId) :
    ((v.removeReference id r₁).addReference id r₂).removeReference id r₂ =
      ((v.addReference id r₂).removeReference id r₁).removeReference id r₂ := by
  simp only [addReference_eq_setReferring, removeReference_eq_setReferring, setReferring_setReferring,
    referring_setReferring]
  refine congrArg (v.setReferring id) (Table.ext_get? fun r => ?_)
  simp only [KeySet.add, Table.get?_insert, Table.get?_erase]
  split_ifs <;> rfl

/-- A file may be referred to before another is dropped or after. -/
theorem deleteFile_addReference (v : Inventory) {id id' : FileId} (ne : id' ≠ id) (r : RequestId) :
    (v.addReference id r).deleteFile id' = (v.deleteFile id').addReference id r := by
  have hsame : ((v.addReference id r).deleteFile id').references =
      ((v.deleteFile id').addReference id r).references := by
    refine Table.ext_get? fun id'' => ?_
    simp only [deleteFile, get?_addReference, Table.get?_erase, if_neg ne.symm]
    split_ifs with hdropped hid
    · exact absurd (hdropped.symm.trans hid) ne
    all_goals rfl
  exact congrArg (fun references => ({ v.deleteFile id' with references := references } : Inventory)) hsame

end Inventory

/-! ### Files in order -/

/-- **A file is in order**: it has a record if there is a set of requests that refer to it, that set is not
empty, and it may be evicted at some time unless it is in flight. -/
structure Site.Tidy (s : Site) (id : FileId) : Prop where
  recorded : s.inventory.references.contains id = true → s.inventory.files.contains id = true
  inhabited : ∀ rs, s.inventory.references.get? id = some rs → rs.size ≠ 0
  unlocked : ∀ f, s.inventory.files.get? id = some f → s.inFlight.contains id = false →
    f.unlockAt.isSome = true

namespace Site.Tidy

theorem of_same (h : s.Tidy id) (files : s'.inventory.files.get? id = s.inventory.files.get? id)
    (references : s'.inventory.references.get? id = s.inventory.references.get? id)
    (inFlight : s'.inFlight.contains id = s.inFlight.contains id) : s'.Tidy id := by
  refine ⟨?_, by rw [references]; exact h.inhabited, by rw [files, inFlight]; exact h.unlocked⟩
  rw [Table.contains, references, Table.contains, files]
  exact h.recorded

/-- A file without a record is in order if nobody refers to it. -/
theorem of_absent (files : s.inventory.files.get? id = none)
    (references : s.inventory.references.get? id = none) : s.Tidy id := by
  refine ⟨fun href => ?_, fun rs hrs => ?_, fun f hf => ?_⟩
  · rw [Table.contains, references] at href
    cases href
  · rw [references] at hrs
    cases hrs
  · rw [files] at hf
    cases hf

/-- Nobody refers to an unknown file. -/
theorem references_of_absent (h : s.Tidy id) (absent : s.inventory.files.get? id = none) :
    s.inventory.references.get? id = none := by
  refine Table.contains_eq_false.1 (Bool.eq_false_iff.2 fun href => ?_)
  have hrecorded := h.recorded href
  rw [Table.contains_eq_false.2 absent] at hrecorded
  cases hrecorded

theorem evictions (h : s.Tidy id) (e : Evictions s s') : s'.Tidy id := by
  rcases e.kept_or_dropped id with ⟨hfile, href⟩ | ⟨hfile, href⟩
  · exact h.of_same hfile href (by rw [e.frame.inFlight])
  · exact of_absent hfile href

/-- A record is written that has an unlock time, or whose file is in flight. -/
theorem saved {g : FileRecord} (h : s.Tidy id) (inventory : s'.inventory = s.inventory.saveFile g)
    (unlocks : g.unlockAt.isSome = true ∨ s'.inFlight.contains g.fileId = true)
    (elsewhere : id ≠ g.fileId → s'.inFlight.contains id = s.inFlight.contains id) : s'.Tidy id := by
  have href : s'.inventory.references = s.inventory.references := by rw [inventory]; rfl
  by_cases hid : id = g.fileId
  · subst hid
    have hfile : s'.inventory.files.get? g.fileId = some g := by
      rw [inventory, Inventory.get?_saveFile_self]
    refine ⟨fun _ => Table.contains_eq_true.2 ⟨g, hfile⟩, by rw [href]; exact h.inhabited, ?_⟩
    intro f hf hgrounded
    obtain rfl := Option.some.inj (hfile.symm.trans hf)
    refine unlocks.resolve_right fun hflying => ?_
    rw [hflying] at hgrounded
    cases hgrounded
  · refine h.of_same ?_ (by rw [href]) (elsewhere hid)
    rw [inventory, Inventory.get?_saveFile_of_ne _ hid]

/-- A request may refer to a file that is known, and to any other. -/
theorem attach (h : s.Tidy id) {id' : FileId} (known : id = id' → s.inventory.files.contains id = true)
    (r : RequestId) : (s.attach id' r).Tidy id := by
  by_cases hid : id = id'
  · subst hid
    refine ⟨fun _ => known rfl, fun rs hrs => ?_, h.unlocked⟩
    have hget := Inventory.get?_addReference s.inventory id id r
    rw [if_pos rfl] at hget
    rw [← Option.some.inj (hget.symm.trans hrs)]
    exact KeySet.size_add_ne_zero _ r
  · exact h.of_same rfl ((Inventory.get?_addReference ..).trans (if_neg hid)) rfl

end Site.Tidy

/-! ### Asking for files -/

namespace Transfers

variable {f : FileRecord}

/-- A file whose transfer was queued has a record, and is in flight. -/
theorem Dispatched.tidy (c : Dispatched f s s') (others : id ≠ f.fileId → s.Tidy id)
    (inhabited : ∀ rs, s.inventory.references.get? f.fileId = some rs → rs.size ≠ 0) : s'.Tidy id := by
  cases c with
  | @intro t account evictions =>
    by_cases hid : id = f.fileId
    · subst hid
      have hflying : (t.inFlight.add f.fileId).contains f.fileId = true :=
        (KeySet.contains_add ..).2 (.inl rfl)
      refine ⟨fun _ => ?_, fun rs hrs => ?_, fun _ _ hgrounded => ?_⟩
      · exact Table.contains_eq_true.2 ⟨f, Inventory.get?_saveFile_self ..⟩
      · rcases evictions.kept_or_dropped f.fileId with ⟨-, href⟩ | ⟨-, href⟩
        · exact inhabited rs (href.symm.trans hrs)
        · cases href.symm.trans hrs
      · exact absurd (hflying.symm.trans hgrounded) nofun
    · refine ((others hid).evictions evictions).of_same (Inventory.get?_saveFile_of_ne _ hid) rfl ?_
      rw [Bool.eq_iff_iff, KeySet.contains_add]
      exact or_iff_right hid

theorem TurnedAway.tidy (c : TurnedAway f s s') (h : s.Tidy id) : s'.Tidy id := by
  cases c with
  | left evictions => exact h.evictions evictions
  | unlocked evictions => exact (h.evictions evictions).saved rfl (.inl rfl) fun _ => rfl

/-- A file that is unknown stays unknown when there is no room for it. -/
theorem TurnedAway.of_absent (c : TurnedAway f s s') (absent : s.inventory.files.get? f.fileId = none) :
    s'.inventory.files.get? f.fileId = none ∧
      s'.inventory.references.get? f.fileId = s.inventory.references.get? f.fileId := by
  cases c with
  | left evictions => exact ⟨evictions.get?_eq_none absent, evictions.references_of_absent absent⟩
  | unlocked evictions _ kept =>
    rw [Table.contains_eq_false.2 (evictions.get?_eq_none absent)] at kept
    cases kept

/-- A file that is to be transferred by an old record is known. -/
theorem contains_of_needOf {entry : ManifestEntry} {kb : UInt64} {found : Option FileRecord}
    (h : needOf entry kb found = .transfer f false) : found.isSome = true := by
  cases found with
  | none => cases h
  | some f => rfl

/-- A file that is settled is known. -/
theorem contains_of_settled {entry : ManifestEntry} {kb : UInt64} {found : Option FileRecord}
    {status : FileStatus} (h : needOf entry kb found = .settled status) : found.isSome = true := by
  cases found with
  | none => cases h
  | some f => rfl

/-- **Every file is in order when a file has been asked for**, whatever came of it. -/
theorem Reply.tidy {r : RequestId} {entry : ManifestEntry} {answer : Except Failure FileStatus}
    (c : Reply r entry s answer s') (hn : s.inventory.Named) (h : ∀ id, s.Tidy id)
    (recorded : s.inFlight.contains entry.fileId = true → s.inventory.files.contains entry.fileId = true)
    (id : FileId) : s'.Tidy id := by
  have hknown : s.inventory.files.contains entry.fileId = true → (s.attach entry.fileId r).Tidy id :=
    fun hknown => (h id).attach (fun hid => hid ▸ hknown) r
  cases c with
  | flying flying => exact hknown (recorded flying)
  | settled grounded need => exact hknown (contains_of_settled need)
  | @dispatched f isNew _ grounded need sent =>
    obtain ⟨hid, -, -⟩ := wants_of_needOf hn need
    refine sent.tidy (fun hne => (h id).attach (fun heq => absurd (heq.trans hid.symm) hne) r) ?_
    intro rs hrs
    have hget := Inventory.get?_addReference s.inventory entry.fileId f.fileId r
    rw [if_pos hid] at hget
    rw [← Option.some.inj (hget.symm.trans hrs)]
    exact KeySet.size_add_ne_zero _ r
  | @turnedAway f isNew t kb room grounded need left =>
    obtain ⟨hid, -, hnew⟩ := wants_of_needOf hn need
    cases isNew with
    | false => exact left.tidy (hknown (contains_of_needOf need))
    | true =>
      -- The file was unknown, so nobody else refers to it, and it is unknown still.
      have habsent := hnew rfl
      have honly := Inventory.get?_addReference s.inventory entry.fileId entry.fileId r
      rw [if_pos rfl, (h entry.fileId).references_of_absent habsent] at honly
      rw [if_pos rfl]
      by_cases hne : id = entry.fileId
      · obtain ⟨hfile, href⟩ := left.of_absent (hid ▸ habsent)
        rw [hne]
        refine .of_absent ?_ (Inventory.get?_removeReference_of_only ?_)
        · exact (congrArg (Table.get? · _) (Inventory.files_removeReference ..)).trans (hid ▸ hfile)
        · rw [hid] at href
          exact href.trans honly
      · refine (left.tidy ((h id).attach (fun heq => absurd heq hne) r)).of_same ?_ ?_ rfl
        · exact congrArg (Table.get? · _) (Inventory.files_removeReference ..)
        · exact Inventory.get?_removeReference_of_ne _ hne r

end Transfers

/-! ### Errands -/

theorem TransferChange.tidy (c : TransferChange s s') (hb : s.Balanced) (faultless : s.Faultless)
    (h : s.Tidy id) : s'.Tidy id := by
  have hlands : ∀ {f : FileRecord}, id ≠ f.fileId →
      (s.inFlight.erase f.fileId).contains id = s.inFlight.contains id := by
    intro f hne
    rw [Bool.eq_iff_iff, KeySet.contains_erase]
    exact and_iff_right hne
  cases c with
  | moved => exact h.of_same rfl rfl rfl
  | arrived => exact h.saved rfl (.inl rfl) hlands
  | givenUp => exact h.saved rfl (.inl rfl) hlands
  | @setBack f e tasks others rest =>
    exact h.saved rfl (.inr (hb.flying f (rest.mem_iff.2 (.head _)))) fun _ => rfl
  | brokenOff _ _ _ faulty => exact absurd faultless faulty

theorem Pursuit.tidy (c : Pursuit s s') (h : s.Tidy id) : s'.Tidy id := by
  cases c with
  | aside a => cases a; exact h.of_same rfl rfl rfl
  | extended => exact h.saved rfl (.inl rfl) fun _ => rfl
  | job c => cases c <;> exact h.of_same rfl rfl rfl

/-- **Every file is in order after an errand.** -/
theorem Errand.tidy (e : Errand s s') (hs : s.Sound) (calm : s.Calm) (h : ∀ id, s.Tidy id)
    (id : FileId) : s'.Tidy id := by
  have hquiet : s.Quiet := ⟨hs.secluded, calm.faultless⟩
  have hn := hs.balanced.named
  cases e with
  | evict e => exact (h id).evictions (.single e)
  | asked r entry retrievable =>
    have hrecorded : s.inFlight.contains entry.fileId = true →
        s.inventory.files.contains entry.fileId = true := fun hflying => by
      obtain ⟨f, hf, hid⟩ := calm.flights _ hflying
      exact Table.contains_eq_true.2 ⟨f, hid ▸ hs.balanced.kept f hf⟩
    have hasked := (Transfers.leads_ensure_of_quiet hquiet hn r retrievable).mono
      (fun _ _ c => c.tidy hn h hrecorded id) fun _ _ c => c.tidy hn h hrecorded id
    exact hasked.after
  | resumed f pending grounded =>
    have hqueued := (Transfers.leads_queue_of_quiet hquiet hn grounded).mono
      (fun _ _ hr => hr.2.tidy (h id)) fun _ _ c => c.tidy (fun _ => h id) (h f.fileId).inhabited
    exact hqueued.after
  | pursued c => exact c.tidy (h id)
  | transfer c => exact c.tidy hs.balanced calm.faultless (h id)
  | clocked | duties | spoiled => exact (h id).of_same rfl rfl rfl

theorem Remarks.tidy (c : Remarks s s') (h : s.Tidy id) : s'.Tidy id := by
  induction c with
  | refl => exact h
  | tail _ c ih =>
    cases c with
    | aside a => cases a; exact ih.of_same rfl rfl rfl
    | warned | told => exact ih.of_same rfl rfl rfl

theorem Undertaking.tidy (u : Undertaking s s') (hs : s.Sound) (calm : s.Calm) (h : ∀ id, s.Tidy id)
    (id : FileId) : s'.Tidy id := by
  cases u with
  | affair a =>
    cases a with
    | errand e => exact e.tidy hs calm h id
    | notified windowMs => exact (Affair.remarks hs.secluded windowMs).tidy (h id)
  | founding r c =>
    cases c with
    | created | packaged => exact (h id).of_same rfl rfl rfl
    | overwritten =>
      refine (h id).of_same ?_ ?_ rfl
      · exact congrArg (Table.get? · id) (Inventory.files_overwriteStatus ..)
      · exact congrArg (Table.get? · id) (Inventory.references_overwriteStatus ..)

/-! ### Runs -/

/-- **No reference dangles, and nothing stays for ever.** In every run that begins with a depot just opened,
with nothing in it, and that does not open it again, where no call is refused: whichever file anybody refers
to has a record, no set of references is empty, and every record whose file is not in flight has an unlock
time. -/
theorem references_never_dangle (h : s.Secluded) (ho : s.Opened) (fresh : s.inventory = .fresh)
    (faultless : s.Faultless) (steps : List Step) (stays : ∀ settings, .restart settings ∉ steps)
    (id : FileId) :
    (∀ rs, (s.run steps).inventory.references.get? id = some rs →
      (s.run steps).inventory.files.contains id = true ∧ rs.size ≠ 0) ∧
    ∀ f, (s.run steps).inventory.files.get? id = some f →
      (s.run steps).inFlight.contains id = false → ∃ u, f.unlockAt = some u := by
  have hstart : s.Calm ∧ ∀ id, s.Tidy id :=
    ⟨ho.calm faultless, fun id => .of_absent (by rw [fresh]; rfl) (by rw [fresh]; rfl)⟩
  obtain ⟨-, htidy⟩ : (s.run steps).Calm ∧ ∀ id, (s.run steps).Tidy id := by
    refine @Site.run_induction_of_undertaking s (fun s => s.Calm ∧ ∀ id, s.Tidy id) (fun _ => False)
      ?_ ?_ ⟨h, ho.balanced (fresh ▸ .fresh)⟩ hstart steps stays
    · exact fun hs u ⟨calm, htidy⟩ => ⟨calm.history (u.sitting hs).history, u.tidy hs calm htidy⟩
    · exact fun _ hfalse => hfalse.elim
  refine ⟨fun rs hrs => ⟨(htidy id).recorded (Table.contains_eq_true.2 ⟨rs, hrs⟩),
    (htidy id).inhabited rs hrs⟩, fun f hf hgrounded => ?_⟩
  exact Option.isSome_iff_exists.1 ((htidy id).unlocked f hf hgrounded)

/-- A depot with room for one of two files of 60 KB. -/
def crowdedSite : Site :=
  { Site.blank { cacheRoot := "cache", limitKb := 100 } with
    supply := { standard := { result := .ok { sizeKb := 60 } } } }

/-- Two files are asked for, and the first arrives. -/
def crowdedRun : List Step :=
  [.ensure ⟨"r"⟩ ⟨⟨"f"⟩, .spectrum, none, some 60⟩, .ensure ⟨"r"⟩ ⟨⟨"g"⟩, .spectrum, none, some 60⟩,
    .move 0, .move 0]

theorem references_of_crowdedRun :
    (∃ rs f u, (crowdedSite.run crowdedRun).inventory.references.get? ⟨"f"⟩ = some rs ∧ rs.size ≠ 0 ∧
      (crowdedSite.run crowdedRun).inventory.files.get? ⟨"f"⟩ = some f ∧ f.unlockAt = some u) ∧
    (crowdedSite.run crowdedRun).inventory.references.get? ⟨"g"⟩ = none := by
  have hall := references_never_dangle (s := crowdedSite) ⟨rfl, rfl, rfl, rfl, rfl⟩ ⟨rfl, rfl, rfl⟩ rfl
    (fun _ => rfl) crowdedRun fun _ hmem => by simp [crowdedRun] at hmem
  have hrefers : ((crowdedSite.run crowdedRun).inventory.references.get? ⟨"f"⟩).isSome = true := by
    decide +kernel
  have hlanded : (crowdedSite.run crowdedRun).inFlight.contains ⟨"f"⟩ = false := by decide +kernel
  have hunknown : (crowdedSite.run crowdedRun).inventory.files.contains ⟨"g"⟩ = false := by decide +kernel
  constructor
  · obtain ⟨rs, hrs⟩ := Option.isSome_iff_exists.1 hrefers
    obtain ⟨hknown, hsize⟩ := (hall ⟨"f"⟩).1 rs hrs
    obtain ⟨f, hf⟩ := Table.contains_eq_true.1 hknown
    obtain ⟨u, hu⟩ := (hall ⟨"f"⟩).2 f hf hlanded
    exact ⟨rs, f, u, hrs, hsize, hf, hu⟩
  · cases hg : (crowdedSite.run crowdedRun).inventory.references.get? ⟨"g"⟩ with
    | none => rfl
    | some rs => exact absurd (((hall ⟨"g"⟩).1 rs hg).1.symm.trans hunknown) nofun

end Depot
