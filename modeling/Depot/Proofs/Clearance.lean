import Depot.Proofs.Commitment
import Depot.Proofs.Removal

/-!
# What evictions take away from the disk

An eviction drops the record of a file, removes the bytes at its location if they may be removed, and gives
back what the file was charged. Nothing is asked of the depot here: its inventory may be kept in a file, and
any call may be refused.

## Main statements

* `Room.leads_evictFile_anywhere` — what one eviction does.
* `Room.clears_evict` — what is gone after a whole call.
* `eviction_removes_within_root` — what an eviction takes away from the disk.
* `eviction_frees_iff_root_is_level` — whether the room that an eviction frees is free on the disk.
* `root_is_removed`, `bytes_outlive_their_record` — a cache root that is removed, and one in which nothing is.
-/

namespace Depot

open Act

/-! ### Dropping a record -/

variable {s s' : Site}

/-- A depot in which the record of a file may have been dropped. -/
structure Site.Drops (s : Site) (id : FileId) (s' : Site) : Prop where
  settings : s'.settings = s.settings
  account : s'.account = s.account
  inventory : s'.inventory = s.inventory ∨ s'.inventory = s.inventory.deleteFile id
  disk : s.disk.Keeps s'.disk

theorem Site.Stays.drops (h : s.Stays s') (id : FileId) : s.Drops id s' := by
  rw [h.eq]
  exact ⟨rfl, rfl, .inl rfl, .refl _⟩

/-- **A record is dropped**, or there is none that can be; nothing is gone from the disk. -/
theorem Records.leads_deleteFile_anywhere (id : FileId) (s : Site) :
    Leads (deleteFile id) (fun _ s' => s.Drops id s')
      (fun found s' => s.Drops id s' ∧ (found = none ∨
        found = s.inventory.files.get? id ∧ s'.inventory = s.inventory.deleteFile id)) s := by
  rw [deleteFile, leads_bind]
  refine (leads_reach_stays .deleteFile s).mono (fun _ _ h => h.2.drops id) fun _ s₁ hreached => ?_
  rw [leads_bind]
  refine (leads_strikes .loseClaim s₁).mono (fun _ _ => False.elim) fun lost s₂ hstruck => ?_
  have hstays := hreached.trans hstruck.1
  cases lost with
  | true =>
    simp only [if_true, leads_pure]
    exact ⟨hstays.drops id, .inl trivial⟩
  | false =>
    simp only [Bool.false_eq_true, if_false, leads_bind, leads_get, leads_pure]
    rw [hstays.eq]
    refine (leads_change_anywhere _ _).mono ?_ ?_
    · rintro e _ ⟨disk, hkeeps, rfl⟩
      exact ⟨rfl, rfl, .inr rfl, hkeeps⟩
    · rintro _ _ ⟨disk, hkeeps, rfl⟩
      exact ⟨⟨rfl, rfl, .inr rfl, hkeeps⟩, .inr ⟨rfl, rfl⟩⟩

theorem Records.drops_deleteFile (id : FileId) (s : Site) : s.Drops id ((deleteFile id).after s) :=
  Leads.after ((leads_deleteFile_anywhere id s).mono (fun _ _ h => h) fun _ _ h => h.1)

/-! ### Evicting a file -/

namespace Site

variable {f : FileRecord} {location : String}

theorem diskWithout_of_none (h : f.location = none) : s.diskWithout f = s.disk := by
  rw [diskWithout, h]

theorem diskWithout_of_removable (h : f.location = some location)
    (removable : Path.isRemovable s.settings.cacheRoot location = true) :
    s.diskWithout f = (s.disk.remove location).1 := by
  rw [diskWithout, h]
  exact if_pos removable

theorem diskWithout_of_not_removable (h : f.location = some location)
    (removable : Path.isRemovable s.settings.cacheRoot location = false) : s.diskWithout f = s.disk := by
  rw [diskWithout, h]
  exact if_neg (by rw [removable]; exact Bool.false_ne_true)

end Site

/-- The site when the bytes of a dropped file have gone, and what it was charged. -/
def Site.clear (s : Site) (f : FileRecord) : Site :=
  { s with
    disk := s.diskWithout f
    account := s.account.discharge f.chargedKb
    log := s.log ++ [.evicted f s.clock.now s.inventory] }

namespace Room

/-- **What an eviction does**, in any depot: the record is dropped, and if there was one, the file's bytes go
and what it was charged. -/
theorem leads_evictFile_anywhere (id : FileId) (s : Site) :
    Leads (evictFile id)
      (fun e s' => (Records.deleteFile id).answer s = .error e ∧ s' = (Records.deleteFile id).after s)
      (fun kb s' =>
        ((Records.deleteFile id).answer s = .ok none ∧ kb = none ∧
          s' = (Records.deleteFile id).after s) ∨
        ∃ f, (Records.deleteFile id).answer s = .ok (some f) ∧ kb = some f.chargedKb ∧
          s' = ((Records.deleteFile id).after s).clear f) s := by
  rw [evictFile, leads_bind]
  refine (leads_answer (Records.deleteFile id) s).mono (fun _ _ h => h) ?_
  rintro found s₁ ⟨hanswer, rfl⟩
  cases found with
  | none =>
    rw [leads_pure]
    exact .inl ⟨hanswer, rfl, rfl⟩
  | some f =>
    simp only [leads_bind]
    rw [leads_eraseBytes_iff]
    simp only [leads_modify, leads_now, leads_get, leads_note, leads_pure]
    exact .inr ⟨f, hanswer, rfl, rfl⟩

/-- Where the record has been dropped the file is evicted. -/
theorem evictFile_of_dropped {id : FileId} {f : FileRecord}
    (h : (Records.deleteFile id).answer s = .ok (some f)) :
    (evictFile id).answer s = .ok (some f.chargedKb) ∧
      (evictFile id).after s = ((Records.deleteFile id).after s).clear f := by
  have hleads := leads_evictFile_anywhere id s
  cases hanswer : (evictFile id).answer s with
  | error e =>
    rw [h] at hleads
    cases (hleads.of_error hanswer).1
  | ok kb =>
    obtain ⟨hnone, -, -⟩ | ⟨g, hg, hkb, hafter⟩ := hleads.of_ok hanswer
    · rw [h] at hnone
      cases hnone
    · rw [h] at hg
      cases hg
      exact ⟨congrArg Except.ok hkb, hafter⟩

/-- Where no record has been dropped nothing else happens. -/
theorem evictFile_of_not_dropped {id : FileId}
    (h : ∀ f, (Records.deleteFile id).answer s ≠ .ok (some f)) :
    (evictFile id).after s = (Records.deleteFile id).after s := by
  have hleads := leads_evictFile_anywhere id s
  cases hanswer : (evictFile id).answer s with
  | error e => exact (hleads.of_error hanswer).2
  | ok kb =>
    obtain ⟨-, -, hafter⟩ | ⟨f, hf, -⟩ := hleads.of_ok hanswer
    · exact hafter
    · exact absurd hf (h f)

/-- Where none is dropped with a location whose bytes may be removed, the disk stays as it is. -/
theorem disk_evictFile_of_not_removable {id : FileId}
    (h : ∀ f location, (Records.deleteFile id).answer s = .ok (some f) → f.location = some location →
      Path.isRemovable s.settings.cacheRoot location = false) :
    ((evictFile id).after s).disk = ((Records.deleteFile id).after s).disk := by
  by_cases hanswer : ∃ f, (Records.deleteFile id).answer s = .ok (some f)
  · obtain ⟨f, hf⟩ := hanswer
    rw [(evictFile_of_dropped hf).2]
    cases hlocation : f.location with
    | none => exact Site.diskWithout_of_none hlocation
    | some location =>
      refine Site.diskWithout_of_not_removable hlocation ?_
      rw [(Records.drops_deleteFile id s).settings]
      exact h f location hf hlocation
  · rw [evictFile_of_not_dropped fun f hf => hanswer ⟨f, hf⟩]

/-- Where one is dropped whose bytes may be removed, they are. -/
theorem removes_evictFile {id : FileId} {f : FileRecord} {location : String}
    (dropped : (Records.deleteFile id).answer s = .ok (some f)) (placed : f.location = some location)
    (removable : Path.isRemovable s.settings.cacheRoot location = true) :
    ((Records.deleteFile id).after s).disk.Removes location ((evictFile id).after s).disk := by
  rw [(evictFile_of_dropped dropped).2]
  show Disk.Removes _ _ (Site.diskWithout _ f)
  rw [Site.diskWithout_of_removable placed (by rw [(Records.drops_deleteFile id s).settings]; exact removable)]
  exact Disk.removes_remove (Path.isRemovable_eq_true.1 removable).2

/-- Whether jobs are live is read, and nothing else happens. -/
theorem leads_anyLive_stays : ∀ (rs : List RequestId) (s : Site),
    Leads (anyLive rs) (fun _ s' => s.Stays s') (fun _ s' => s.Stays s') s
  | [], s => by
    rw [anyLive, leads_pure]
    exact .refl s
  | r :: rest, s => by
    rw [anyLive, leads_bind]
    refine (Records.leads_look_stays .loadJob .missJob (·.jobs.get? r) s).mono (fun _ _ h => h.2) ?_
    rintro found s₁ ⟨hstays, -⟩
    have hrest : Leads (anyLive rest) (fun _ s' => s.Stays s') (fun _ s' => s.Stays s') s₁ :=
      (leads_anyLive_stays rest s₁).mono (fun _ _ => hstays.trans) fun _ _ => hstays.trans
    cases found with
    | none => exact hrest
    | some job =>
      refine leads_ite.2 ⟨fun _ => ?_, fun _ => hrest⟩
      rw [leads_pure]
      exact hstays

theorem leads_isPinned_stays (id : FileId) (s : Site) :
    Leads (isPinned id) (fun _ s' => s.Stays s') (fun _ s' => s.Stays s') s := by
  rw [isPinned, leads_bind]
  refine (Records.leads_read_stays .findReferrers (·.referrers id) s).mono (fun _ _ h => h.2) ?_
  rintro rs s₁ ⟨hstays, -⟩
  exact (leads_anyLive_stays rs s₁).mono (fun _ _ => hstays.trans) fun _ _ => hstays.trans

end Room

/-! ### Evicting many files -/

/-- Whatever is gone from a disk was at the location of a record that has been dropped, or below it, and its
bytes may be removed. -/
structure Site.Clears (s s' : Site) : Prop where
  settings : s'.settings = s.settings
  files : ∀ id f, s'.inventory.files.get? id = some f → s.inventory.files.get? id = some f
  gone : ∀ t, s.disk.at? t ≠ none → s'.disk.at? t = none → ∃ id f location,
    s.inventory.files.get? id = some f ∧ s'.inventory.files.get? id = none ∧
      f.location = some location ∧ Path.isRemovable s.settings.cacheRoot location = true ∧
        t.isWithin (Path.ofString location).trail = true

namespace Site.Clears

theorem refl (s : Site) : s.Clears s := ⟨rfl, fun _ _ h => h, fun _ h h' => absurd h' h⟩

theorem trans {s'' : Site} (h : s.Clears s') (h' : s'.Clears s'') : s.Clears s'' := by
  refine ⟨h'.settings.trans h.settings, fun id f hf => h.files id f (h'.files id f hf), fun t ht hgone => ?_⟩
  by_cases ht' : s'.disk.at? t = none
  · obtain ⟨id, f, location, hf, hnone, hrest⟩ := h.gone t ht ht'
    refine ⟨id, f, location, hf, ?_, hrest⟩
    cases hf' : s''.inventory.files.get? id with
    | none => rfl
    | some g =>
      rw [h'.files id g hf'] at hnone
      cases hnone
  · obtain ⟨id, f, location, hf, hnone, hlocation, hremovable, hwithin⟩ := h'.gone t ht' hgone
    exact ⟨id, f, location, h.files id f hf, hnone, hlocation, h.settings ▸ hremovable, hwithin⟩

theorem of_stays (h : s.Stays s') : s.Clears s' := by
  rw [h.eq]
  exact ⟨rfl, fun _ _ h => h, fun _ h h' => absurd h' h⟩

theorem of_drops {id : FileId} (h : s.Drops id s') : s.Clears s' := by
  refine ⟨h.settings, fun id' f hf => ?_, fun t ht hgone => absurd hgone (h.disk t ht)⟩
  obtain hsame | hdropped := h.inventory
  · rwa [hsame] at hf
  · rw [hdropped, Inventory.get?_deleteFile] at hf
    split at hf
    · cases hf
    · exact hf

/-- What goes with a record that has been dropped was at its location, or below it. -/
theorem of_clear {id : FileId} {f : FileRecord} (h : s.Drops id s')
    (found : s.inventory.files.get? id = some f) (dropped : s'.inventory.files.get? id = none) :
    s.Clears (s'.clear f) := by
  refine ⟨h.settings, (of_drops h).files, fun t ht hgone => ?_⟩
  have hthere := h.disk t ht
  change (s'.diskWithout f).at? t = none at hgone
  unfold Site.diskWithout at hgone
  split at hgone
  · exact absurd hgone hthere
  · next location hlocation =>
    split at hgone
    · next hremovable =>
      obtain hsame | ⟨hwithin, -⟩ :=
        (Disk.removes_remove (d := s'.disk) (Path.isRemovable_eq_true.1 hremovable).2).only t
      · exact absurd (hsame ▸ hgone) hthere
      · exact ⟨id, f, location, found, dropped, hlocation, h.settings ▸ hremovable, hwithin⟩
    · exact absurd hgone hthere

end Site.Clears

namespace Room

theorem clears_evictFile (id : FileId) (s : Site) :
    Leads (evictFile id) (fun _ s' => s.Clears s') (fun _ s' => s.Clears s') s := by
  have hdrops := Records.leads_deleteFile_anywhere id s
  refine (leads_evictFile_anywhere id s).mono ?_ ?_
  · rintro e _ ⟨hanswer, rfl⟩
    exact .of_drops (hdrops.of_error hanswer)
  · rintro kb _ (⟨hanswer, -, rfl⟩ | ⟨f, hanswer, -, rfl⟩)
    · exact .of_drops (hdrops.of_ok hanswer).1
    · obtain ⟨hd, hnone | ⟨hfound, hinventory⟩⟩ := hdrops.of_ok hanswer
      · cases hnone
      · refine .of_clear hd hfound.symm ?_
        rw [hinventory, Inventory.get?_deleteFile, if_pos rfl]

/-- Of a list of files each is passed over or evicted, in any depot. -/
theorem clears_evictAmong (required : Option UInt64) : ∀ (l : List FileRecord) (done : Reclaim) (s : Site),
    Leads (evictAmong required l done) (fun _ s' => s.Clears s') (fun _ s' => s.Clears s') s
  | [], done, s => by
    rw [evictAmong, leads_pure]
    exact .refl s
  | f :: rest, done, s => by
    have hrest : ∀ {s₁ : Site}, s.Clears s₁ → ∀ done, Leads (evictAmong required rest done)
        (fun _ s' => s.Clears s') (fun _ s' => s.Clears s') s₁ := fun h done =>
      (clears_evictAmong required rest done _).mono (fun _ _ => h.trans) fun _ _ => h.trans
    simp only [evictAmong, leads_bind, leads_get]
    split
    · rw [leads_pure]
      exact .refl s
    simp only [leads_bind, leads_get]
    split
    · exact hrest (.refl s) done
    rw [leads_bind]
    refine (leads_isPinned_stays f.fileId s).mono (fun _ _ => .of_stays) fun pinned s₁ hstays => ?_
    cases pinned with
    | true => exact hrest (.of_stays hstays) done
    | false =>
      simp only [Bool.false_eq_true, if_false, leads_bind]
      refine (clears_evictFile f.fileId s₁).mono (fun _ _ => (Site.Clears.of_stays hstays).trans)
        fun kb s₂ hcleared => ?_
      have hcleared := (Site.Clears.of_stays hstays).trans hcleared
      cases kb with
      | none => exact hrest hcleared done
      | some kb => exact hrest hcleared _

/-- **What is gone after a call that evicts files**, wherever it stops. -/
theorem clears_evict (required : Option UInt64) (s : Site) : s.Clears ((evict required).after s) := by
  refine Leads.after ?_
  simp only [evict, leads_bind, leads_now]
  refine (Records.leads_read_stays .findUnlocked (·.unlockedBefore s.clock.now) s).mono
    (fun _ _ h => .of_stays h.2) ?_
  rintro l s₁ ⟨hstays, -⟩
  refine (clears_evictAmong required l {} s₁).mono (fun _ _ => (Site.Clears.of_stays hstays).trans)
    fun done s₂ hcleared => ?_
  simp only [leads_get, leads_pure]
  exact (Site.Clears.of_stays hstays).trans hcleared

end Room

/-! ### What an eviction takes away -/

/-- **What an eviction takes away from the disk**, in every depot, for every cache root and every location.
That the record is dropped takes nothing away. Where no record is dropped, or none with a location whose
bytes may be removed, the disk stays as it is; otherwise it loses what is at the location and below it, and
nothing else. The bytes may be removed at a location below the cache root, and then the cache root itself
stays, unless it is the empty text; they may also be removed at the cache root itself, and, where the cache
root is the empty text, at every absolute path that never leads upward. In a call that evicts many files,
whatever is gone at its end was at such a location of a record dropped in that call, or below it. -/
theorem eviction_removes_within_root (s : Site) (id : FileId) (root : String)
    (d d' : Disk) (hroot : s.settings.cacheRoot = root)
    (dropped : ((Records.deleteFile id).after s).disk = d)
    (evicted : ((Room.evictFile id).after s).disk = d') :
    s.disk.Keeps d ∧
    ((∀ f location, (Records.deleteFile id).answer s = .ok (some f) → f.location = some location →
      Path.isRemovable root location = false) → d' = d) ∧
    (∀ f location, (Records.deleteFile id).answer s = .ok (some f) → f.location = some location →
      Path.isRemovable root location = true → d.Removes location d') ∧
    (∀ location, Path.isRemovable root location = true ↔
      Path.IsBelow (Path.ofString location) (Path.ofString root) ∨
        (Path.ofString location = Path.ofString root ∧ .up ∉ Path.ofString root) ∨
        (root = "" ∧ location.toList.head? = some '/' ∧ .up ∉ Path.ofString location)) ∧
    (∀ location, root ≠ "" → Path.IsBelow (Path.ofString location) (Path.ofString root) →
      d.Removes location d' → d'.at? (Path.ofString root).trail = d.at? (Path.ofString root).trail) ∧
    ∀ required, s.Clears ((Room.evict required).after s) := by
  subst hroot dropped evicted
  refine ⟨(Records.drops_deleteFile id s).disk, Room.disk_evictFile_of_not_removable,
    fun f location => Room.removes_evictFile, fun location => Path.isRemovable_iff,
    fun location hne hbelow hremoves => ?_, fun required => Room.clears_evict required s⟩
  obtain hsame | ⟨hwithin, -⟩ := hremoves.only (Path.ofString s.settings.cacheRoot).trail
  · exact hsame
  · rw [hbelow.not_isWithin hne] at hwithin
    cases hwithin

/-- A depot a second into 1970, with two files of 60 KB in the directory `cache`. The record of one may be evicted
and has a location of choice; the other file is locked. -/
def twoPlaceSite (cacheRoot location : String) : Site where
  settings := { cacheRoot := cacheRoot }
  clock := { hand := 1000 }
  account := { committed := 120 }
  disk := ⟨[(⟨.above 0, ["cache"]⟩, .directory), (⟨.above 0, ["cache", "f"]⟩, .file none),
    (⟨.above 0, ["cache", "g"]⟩, .file none)]⟩
  inventory :=
    (Inventory.fresh.saveFile
      { FileRecord.ofEntry ⟨⟨"f"⟩, .spectrum, none, none⟩ 60 with
        sizeKb := some 60, available := true, unlockAt := some .epoch, location := some location }).saveFile
      { FileRecord.ofEntry ⟨⟨"g"⟩, .spectrum, none, none⟩ 60 with
        sizeKb := some 60, available := true, location := some "cache/g" }

/-- With a file at `cache/f` goes what is there, and neither the cache root nor the other file. -/
theorem removal_below_root :
    let d := ((Room.evictFile ⟨"f"⟩).after (twoPlaceSite "cache" "cache/f")).disk
    d.at? ⟨.above 0, ["cache", "f"]⟩ = none ∧
      d.at? ⟨.above 0, ["cache"]⟩ = some .directory ∧
      d.at? ⟨.above 0, ["cache", "g"]⟩ = some (.file none) := by
  intro d
  obtain ⟨-, -, hremoves, hremovable, hroot, -⟩ :=
    eviction_removes_within_root (twoPlaceSite "cache" "cache/f") ⟨"f"⟩ "cache" _ d rfl rfl rfl
  have hbelow : Path.IsBelow (Path.ofString "cache/f") (Path.ofString "cache") :=
    ⟨⟨[.name "f"], by decide, by decide⟩, by decide, by decide⟩
  have hremoved := hremoves _ "cache/f" rfl rfl ((hremovable _).2 (.inl hbelow))
  refine ⟨hremoved.itself _ (.file none) (by decide +kernel) nofun, ?_, ?_⟩
  · exact (hroot _ (by decide) hbelow hremoved).trans (by decide +kernel)
  · obtain hsame | ⟨hwithin, -⟩ := hremoved.only ⟨.above 0, ["cache", "g"]⟩
    · exact hsame.trans (by decide +kernel)
    · exact absurd hwithin (by decide)

/-- **The cache root itself is removed** when a record has it as its location: the file of another record, which
stays and is locked, goes with it. -/
theorem root_is_removed :
    let s := twoPlaceSite "cache" "cache"
    ¬Path.IsBelow (Path.ofString "cache") (Path.ofString s.settings.cacheRoot) ∧
      s.disk.at? ⟨.above 0, ["cache", "g"]⟩ = some (.file none) ∧
      (Room.purge.answer s).toOption = some { filesEvicted := 1, freedKb := 60, satisfied := true } ∧
      (Room.purge.after s).inventory.files.contains ⟨"g"⟩ = true ∧
      (Room.purge.after s).disk.at? ⟨.above 0, ["cache", "g"]⟩ = none ∧
      (Room.purge.after s).disk.at? ⟨.above 0, ["cache"]⟩ = none := by
  refine ⟨?_, by decide +kernel⟩
  rintro ⟨⟨rest, hrest, h⟩, -, -⟩
  exact hrest (List.append_cancel_left (h.symm.trans (List.append_nil _).symm))

/-! ### Whether what is freed is free -/

theorem FileId.valid_of_parse {value : String} {id : FileId} (h : FileId.parse value = .ok id) :
    FileId.Valid id.text.toList := by
  unfold FileId.parse at h
  split at h
  · next hvalid =>
    cases h
    rwa [String.toList_ofList]
  · cases h

/-- Once the bytes of a file in the cache root have been removed, nothing is found at its location. -/
theorem Disk.Removes.find?_join {d d' : Disk} {root name : String} (h : FileId.Valid name.toList)
    (level : .up ∉ Path.ofString root) (removes : d.Removes (Path.join root name) d') :
    d'.find? (Path.join root name) = none := by
  have hplace : .up ∉ Path.ofString (Path.join root name) := by
    rw [Path.ofString_join root h]
    simpa using level
  cases hfind : d.find? (Path.join root name) with
  | none => rw [removes.nothing hfind, hfind]
  | some x =>
    obtain ⟨t, e⟩ := x
    have htrail := Disk.trailOf?_eq_trail hplace (Disk.find?_eq_some hfind).1
    have hnames : t.names ≠ [] := by simp [htrail, Path.trail, Path.ofString_join root h, Path.name?]
    have hgone := removes.itself t e hfind fun _ => ⟨hnames, Path.endsHere_join root h⟩
    cases hfind' : d'.find? (Path.join root name) with
    | none => rfl
    | some y =>
      obtain ⟨u, e'⟩ := y
      obtain ⟨hu, hat⟩ := Disk.find?_eq_some hfind'
      rw [Disk.trailOf?_eq_trail hplace hu, ← htrail, hgone] at hat
      cases hat

/-- **Whether the room that an eviction frees is free on the disk.** In every depot, for every cache root and
every accepted name: where a file with a size, whose location is the cache root joined with its name, is
dropped to be evicted, its size is answered and given back. If the cache root never leads upward, what was at
the location is gone then, and nothing else; if it leads upward the disk stays as it is, and no call that
evicts files removes anything. So a file at the location is gone exactly if the cache root never leads
upward. -/
theorem eviction_frees_iff_root_is_level (s : Site) {value root location : String} {id : FileId}
    {f : FileRecord} {kb : UInt64} {d d' : Disk} (accepted : FileId.parse value = .ok id)
    (hroot : s.settings.cacheRoot = root) (hlocation : Path.join root id.text = location)
    (there : f.available = true) (size : f.sizeKb = some kb) (placed : f.location = some location)
    (dropped : (Records.deleteFile id).answer s = .ok (some f))
    (before : ((Records.deleteFile id).after s).disk = d)
    (after : ((Room.evictFile id).after s).disk = d') :
    (Room.evictFile id).answer s = .ok (some kb.toNat) ∧
    ((Room.evictFile id).after s).account = s.account.discharge kb.toNat ∧
    (.up ∉ Path.ofString root → d.Removes location d' ∧ d'.find? location = none) ∧
    (.up ∈ Path.ofString root → d' = d ∧
      ∀ required, s.disk.Keeps ((Room.evict required).after s).disk) ∧
    (∀ t text, d.find? location = some (t, .file text) →
      (d'.at? t = none ↔ .up ∉ Path.ofString root)) := by
  subst hroot hlocation before after
  have hvalid := FileId.valid_of_parse accepted
  obtain ⟨hanswer, hafter⟩ := Room.evictFile_of_dropped dropped
  have hcharged : f.chargedKb = kb.toNat := by simp [FileRecord.chargedKb, there, size]
  have hlevel : .up ∉ Path.ofString s.settings.cacheRoot →
      ((Records.deleteFile id).after s).disk.Removes (Path.join s.settings.cacheRoot id.text)
        ((Room.evictFile id).after s).disk :=
    fun hup => Room.removes_evictFile dropped placed ((Path.isRemovable_join hvalid).2 hup)
  have hclimbs : .up ∈ Path.ofString s.settings.cacheRoot →
      ((Room.evictFile id).after s).disk = ((Records.deleteFile id).after s).disk :=
    fun hup => Room.disk_evictFile_of_not_removable fun _ location _ _ => Path.isRemovable_of_up hup location
  refine ⟨hcharged ▸ hanswer, ?_, fun hup => ⟨hlevel hup, (hlevel hup).find?_join hvalid hup⟩,
    fun hup => ⟨hclimbs hup, fun required t ht hgone => ?_⟩, fun t text hfile => ⟨?_, ?_⟩⟩
  · rw [hafter, ← hcharged]
    exact congrArg (Account.discharge · f.chargedKb) (Records.drops_deleteFile id s).account
  · obtain ⟨_, _, location, _, _, _, hremovable, _⟩ := (Room.clears_evict required s).gone t ht hgone
    rw [Path.isRemovable_of_up hup] at hremovable
    cases hremovable
  · intro hgone hup
    rw [hclimbs hup, (Disk.find?_eq_some hfile).2] at hgone
    cases hgone
  · intro hup
    exact (hlevel hup).itself t _ hfile fun h => by cases h

/-- A file of 60 KB in the directory `cache` is evicted, and nothing is at its location then. -/
theorem freeing_in_level_root :
    (Room.evictFile ⟨"f"⟩).answer (twoPlaceSite "cache" "cache/f") = .ok (some 60) ∧
      ((Room.evictFile ⟨"f"⟩).after (twoPlaceSite "cache" "cache/f")).disk.find? "cache/f" = none := by
  have haccepted : FileId.parse " f " = .ok ⟨"f"⟩ := by rfl
  have hjoined : Path.join "cache" "f" = "cache/f" := by decide +kernel
  obtain ⟨hanswer, -, hlevel, -⟩ :=
    eviction_frees_iff_root_is_level (twoPlaceSite "cache" "cache/f") haccepted rfl hjoined rfl rfl rfl rfl
      rfl rfl
  exact ⟨hanswer, (hlevel (by decide)).2⟩

/-- **Where the cache root leads upward** an eviction frees the room of a file in it, and the file is still
there. -/
theorem bytes_outlive_their_record :
    let s := twoPlaceSite "cache/../cache" "cache/../cache/f"
    Path.join s.settings.cacheRoot "f" = "cache/../cache/f" ∧
      s.disk.find? "cache/../cache/f" = some (⟨.above 0, ["cache", "f"]⟩, .file none) ∧
      (Room.purge.answer s).toOption = some { filesEvicted := 1, freedKb := 60, satisfied := true } ∧
      (Room.purge.after s).inventory.files.contains ⟨"f"⟩ = false ∧
      (Room.purge.after s).disk.find? "cache/../cache/f" =
        some (⟨.above 0, ["cache", "f"]⟩, .file none) := by
  decide +kernel

end Depot
