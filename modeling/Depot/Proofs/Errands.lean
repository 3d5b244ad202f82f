import Depot.Proofs.Assessment

/-!
# Errands

A change is the least that may happen to a depot, and much of what a depot does makes sense only as a whole:
a file is asked for before it has a record, and is given up if it gets none. An errand is a piece of work of
that size. Between two errands the depot is in order, where between two changes it need not be.

Most operations are courses of errands, whether they fail or not (`Act.Within`). Each errand is a course of
changes, so what is known of changes is known of errands too.

## Main statements

* `Errand.course` — an errand is a course of changes.
* `Transfers.errands_resumePending`, `Jobs.errands_assessEntries` — asking for files is a course of errands.
-/

namespace Depot

open Act Time

variable {α β : Type} {s s' : Site}

/-! ### Sound depots -/

/-- A secluded depot whose books balance. -/
structure Site.Sound (s : Site) : Prop where
  secluded : s.Secluded
  balanced : s.Balanced

theorem Site.Sound.course (h : s.Sound) (c : Course s s') : s'.Sound :=
  ⟨c.secluded h.secluded, h.balanced.course c⟩

/-! ### Operations that go on in steps -/

/-- An operation goes on in steps of a relation, whether it fails or not. -/
def Act.Within (R : Site → Site → Prop) (x : Act α) (s : Site) : Prop :=
  Leads x (fun _ s' => Relation.ReflTransGen R s s') (fun _ s' => Relation.ReflTransGen R s s') s

namespace Act.Within

variable {R R' : Site → Site → Prop}

/-- Steps that go on with an operation. -/
theorem after {x : Act α} (h : x.Within R s') (c : Relation.ReflTransGen R s s') :
    Leads x (fun _ s' => Relation.ReflTransGen R s s') (fun _ s' => Relation.ReflTransGen R s s') s' :=
  h.mono (fun _ _ c' => c.trans c') fun _ _ c' => c.trans c'

theorem mono {x : Act α} (h : x.Within R s)
    (hR : ∀ s', Relation.ReflTransGen R s s' → Relation.ReflTransGen R' s s') : x.Within R' s :=
  Leads.mono h (fun _ _ c => hR _ c) fun _ _ c => hR _ c

theorem pure (a : α) (s : Site) : (Pure.pure a : Act α).Within R s := by
  rw [Within, leads_pure]

theorem throw (e : Failure) (s : Site) : (throw e : Act α).Within R s := by
  rw [Within, leads_throw]

theorem get (s : Site) : (get : Act Site).Within R s := by
  rw [Within, leads_get]

theorem modify {f : Site → Site} (h : Relation.ReflTransGen R s (f s)) :
    (modify f : Act Unit).Within R s := by
  rw [Within, leads_modify]
  exact h

theorem bind {x : Act α} {f : α → Act β} (h : x.Within R s)
    (hf : ∀ a s', Relation.ReflTransGen R s s' → (f a).Within R s') : (x >>= f).Within R s := by
  rw [Within, leads_bind]
  exact Leads.mono h (fun _ _ c => c) fun a s₁ c => (hf a s₁ c).after c

theorem attempt {x : Act α} (h : x.Within R s) : (Act.attempt x).Within R s := by
  rw [Within, leads_attempt]
  exact h

theorem forgive {x : Act α} (h : x.Within R s) : (Act.forgive x).Within R s := by
  rw [Within, leads_forgive]
  exact h

/-- After a failure nothing is done. -/
theorem throw_bind (e : Failure) (f : α → Act β) (s : Site) :
    (MonadExcept.throw e >>= f : Act β).Within R s := by
  rw [Within, leads_bind, leads_throw]

/-- It makes no difference whether an answer is looked at. -/
theorem discard {x : Act α} (h : x.Within R s) : (do let _ ← x : Act Unit).Within R s :=
  h.bind fun _ s₁ _ => .pure () s₁

/-- An operation that is a single step. -/
theorem whole {x : Act α} (h : R s (x.after s)) : x.Within R s :=
  (leads_answer x s).mono (fun _ _ hs' => hs'.2 ▸ .single h) fun _ _ hs' => hs'.2 ▸ .single h

end Act.Within

/-! ### Known files -/

/-- A file has a record, or has been evicted. -/
def Site.Knows (s : Site) (id : FileId) : Prop :=
  s.inventory.files.contains id = true ∨ ∃ x ∈ s.evictions, x.1.fileId = id

/-- A known file stays known. -/
theorem FileChange.knows {id : FileId} (c : FileChange s s') (h : s.Knows id) : s'.Knows id := by
  have hlogged : ∀ {t : Site} {e : Happening}, t.log = s.log ++ [e] →
      (∃ x ∈ s.evictions, x.1.fileId = id) → ∃ x ∈ t.evictions, x.1.fileId = id := by
    rintro t e ht ⟨x, hx, hid⟩
    refine ⟨x, ?_, hid⟩
    rw [Site.evictions, ht, List.filterMap_append]
    exact List.mem_append_left _ hx
  cases c with
  | evict e =>
    cases e with
    | aside a => cases a; exact h
    | @evicted f disk kept =>
      by_cases hid : f.fileId = id
      · refine .inr ⟨(f, s.inventory.deleteFile f.fileId), ?_, hid⟩
        rw [Site.evictions, List.filterMap_append]
        exact List.mem_append_right _ (.head _)
      · refine h.imp (fun hkept => ?_) (hlogged rfl)
        rw [Table.contains_eq_true] at hkept ⊢
        rwa [Inventory.get?_deleteFile_of_ne _ (Ne.symm hid)]
  | detached =>
    refine h.imp_left fun hkept => ?_
    rw [Inventory.files_removeReference]
    exact hkept
  | queued => exact h.imp (Inventory.contains_saveFile _ _) (hlogged rfl)
  | unlocked | extended => exact h.imp_left (Inventory.contains_saveFile _ _)
  | attached | strayed => exact h

theorem FileCourse.knows {id : FileId} (c : FileCourse s s') (h : s.Knows id) : s'.Knows id := by
  induction c with
  | refl => exact h
  | tail _ c ih => exact c.knows ih

/-! ### Errands -/

/-- **A piece of work** that leaves a depot in order. -/
inductive Errand : Site → Site → Prop
  | evict {s s' : Site} (h : Evict s s') : Errand s s'
  /-- A file is asked for. -/
  | asked {s : Site} (r : RequestId) (entry : ManifestEntry)
      (retrievable : entry.kind.isCatalogue = false) : Errand s ((Transfers.ensure r entry).after s)
  /-- A file still to come is asked for by its record, which is kept if it was not evicted. -/
  | resumed {s : Site} (f : FileRecord) (pending : f.isPending = true)
      (grounded : s.inFlight.contains f.fileId = false)
      (kept : ∀ f₀, s.inventory.files.get? f.fileId = some f₀ → f₀ = f) (known : s.Knows f.fileId) :
      Errand s ((Transfers.queue f).after { s with inFlight := s.inFlight.add f.fileId })
  | pursued {s s' : Site} (h : Pursuit s s') : Errand s s'
  | transfer {s s' : Site} (h : TransferChange s s') : Errand s s'
  | clocked {s : Site} (clock : Clock) : Errand s { s with clock := clock }
  | duties {s : Site} (tasks : List Task)
      (same : tasks.filterMap Task.transfer? = s.transfers) : Errand s { s with tasks := tasks }
  | spoiled {s : Site} (failures : Table FileId Failure) :
      Errand s { s with packager := s.packager.map fun p => { p with failures := failures } }

/-- A course of errands. -/
abbrev Errands : Site → Site → Prop := Relation.ReflTransGen Errand

theorem Pursuits.errands (c : Pursuits s s') : Errands s s' :=
  Relation.ReflTransGen.mono (fun _ _ c => .pursued c) _ _ c

theorem Aside.errands (h : Aside s s') : Errands s s' := .single (.evict (.aside h))

theorem Evictions.errands (h : Evictions s s') : Errands s s' :=
  Relation.ReflTransGen.mono (fun _ _ e => .evict e) _ _ h

/-- A record still to come that is kept, if it is, is wanted. -/
theorem Inventory.wants_of_kept {v : Inventory} {f : FileRecord} (pending : f.isPending = true)
    (kept : ∀ f₀, v.files.get? f.fileId = some f₀ → f₀ = f) : v.Wants f := by
  refine ⟨pending, fun f₀ hf₀ => ?_⟩
  obtain rfl := kept f₀ hf₀
  simp only [FileRecord.isPending, Bool.and_eq_true, Bool.not_eq_true'] at pending
  refine ⟨fun hthere => ?_, pending.2, by rw [← pending.1]⟩
  have havailable := hthere.available
  rw [pending.1] at havailable
  cases havailable

/-- A change that is no warning. -/
inductive Steady : Site → Site → Prop
  | file {s s' : Site} (h : FileChange s s') : Steady s s'
  | transfer {s s' : Site} (h : TransferChange s s') : Steady s s'
  | job {s s' : Site} (h : JobChange s s') : Steady s s'
  | clocked {s : Site} (clock : Clock) : Steady s { s with clock := clock }
  | duties {s : Site} (tasks : List Task)
      (same : tasks.filterMap Task.transfer? = s.transfers) : Steady s { s with tasks := tasks }
  | spoiled {s : Site} (failures : Table FileId Failure) :
      Steady s { s with packager := s.packager.map fun p => { p with failures := failures } }

theorem Steady.change (c : Steady s s') : Change s s' := by
  cases c with
  | file c => exact .file c
  | transfer c => exact .transfer c
  | job c => exact .job c
  | clocked clock => exact .clocked clock
  | duties tasks same => exact .duties tasks same
  | spoiled failures => exact .spoiled failures

theorem FileCourse.steady (c : FileCourse s s') : Relation.ReflTransGen Steady s s' :=
  Relation.ReflTransGen.mono (fun _ _ c => .file c) _ _ c

theorem Pursuit.steady (c : Pursuit s s') : Steady s s' := by
  cases c with
  | aside h => exact .file (.evict (.aside h))
  | extended time kept there grounded => exact .file (.extended time kept there grounded)
  | job c => exact .job c

/-- What is asked for by its record is a course of changes of files. -/
theorem Errand.fileCourse_of_resumed (h : s.Sound) {f : FileRecord} (pending : f.isPending = true)
    (grounded : s.inFlight.contains f.fileId = false)
    (kept : ∀ f₀, s.inventory.files.get? f.fileId = some f₀ → f₀ = f) :
    FileCourse s ((Transfers.queue f).after { s with inFlight := s.inFlight.add f.fileId }) :=
  Leads.after ((Transfers.leads_queue h.secluded h.balanced grounded
    (Inventory.wants_of_kept pending kept)).mono (fun _ _ hr => hr.2.course) fun _ _ hqueued =>
      hqueued.course)

/-- What is asked for is a course of changes of files. -/
theorem Errand.fileCourse_of_asked (h : s.Sound) (r : RequestId) {entry : ManifestEntry}
    (retrievable : entry.kind.isCatalogue = false) :
    FileCourse s ((Transfers.ensure r entry).after s) :=
  Leads.after ((Transfers.leads_ensure h.secluded h.balanced retrievable r).mono
    (fun _ _ hr => hr.2.course) fun _ _ hasked => hasked.course)

/-- **An errand warns of nothing.** -/
theorem Errand.steady (e : Errand s s') (h : s.Sound) : Relation.ReflTransGen Steady s s' := by
  cases e with
  | evict e => exact .single (.file (.evict e))
  | asked r entry retrievable => exact (fileCourse_of_asked h r retrievable).steady
  | resumed f pending grounded kept => exact (fileCourse_of_resumed h pending grounded kept).steady
  | pursued c => exact .single c.steady
  | transfer c => exact .single (.transfer c)
  | clocked clock => exact .single (.clocked clock)
  | duties tasks same => exact .single (.duties tasks same)
  | spoiled failures => exact .single (.spoiled failures)

/-- **An errand is a course of changes.** -/
theorem Errand.course (e : Errand s s') (h : s.Sound) : Course s s' :=
  Relation.ReflTransGen.mono (fun _ _ c => c.change) _ _ (e.steady h)

namespace Errands

theorem course (c : Errands s s') (h : s.Sound) : Course s s' := by
  induction c with
  | refl => exact .refl
  | tail _ e ih => exact ih.trans (e.course (h.course ih))

theorem sound (c : Errands s s') (h : s.Sound) : s'.Sound := h.course (c.course h)

end Errands

/-! ### Files asked for -/

namespace Transfers

/-- Files still to come: each is on the list once, and its record is kept as it is listed, or dropped. -/
structure ListsPending (s : Site) (l : List FileRecord) : Prop where
  nodup : (l.map FileRecord.fileId).Nodup
  pending : ∀ f ∈ l, f.isPending = true
  kept : ∀ f ∈ l, ∀ f₀, s.inventory.files.get? f.fileId = some f₀ → f₀ = f

theorem ListsPending.tail {f : FileRecord} {rest : List FileRecord} (h : ListsPending s (f :: rest))
    (drops : s.inventory.OnlyDrops f.fileId s'.inventory) : ListsPending s' rest := by
  obtain ⟨hf, hrest⟩ := List.nodup_cons.1 h.nodup
  refine ⟨hrest, fun g hg => h.pending g (.tail _ hg), fun g hg g₀ hg₀ => ?_⟩
  have hne : g.fileId ≠ f.fileId := fun heq => hf (heq ▸ List.mem_map_of_mem hg)
  exact h.kept g (.tail _ hg) g₀ (drops _ _ hne hg₀)

theorem ListsPending.wants {f : FileRecord} {rest : List FileRecord} (h : ListsPending s (f :: rest)) :
    s.inventory.Wants f := Inventory.wants_of_kept (h.pending f (.head _)) (h.kept f (.head _))

theorem listsPending_pendingFiles (hn : s.inventory.Named) :
    ListsPending s s.inventory.pendingFiles := by
  refine ⟨?_, fun f hf => (List.mem_filter.1 hf).2, fun f hf f₀ hf₀ => ?_⟩
  · refine List.Nodup.sublist (List.filter_sublist.map _) ?_
    rw [hn.map_fileId]
    exact Table.nodup_keys _
  · obtain ⟨id, hid⟩ := Table.mem_values.1 (List.mem_filter.1 hf).1
    rw [hn.files id f hid, hid] at hf₀
    exact (Option.some.inj hf₀).symm

/-- Whatever cannot be queued is passed over. -/
theorem errands_resumeAll : ∀ (l : List FileRecord) {s : Site}, s.Sound → ListsPending s l →
    (∀ f ∈ l, s.Knows f.fileId) → (resumeAll l).Within Errand s
  | [], s, h, hl, hknown => .pure 0 s
  | f :: rest, s, h, hl, hknown => by
    have hnext : ∀ {s'}, Errands s s' → FileCourse s s' →
        s.inventory.OnlyDrops f.fileId s'.inventory → Leads (resumeAll rest)
          (fun _ s' => Errands s s') (fun _ s' => Errands s s') s' := fun c hc hdrops =>
      (errands_resumeAll rest (c.sound h) (hl.tail hdrops) fun g hg =>
        hc.knows (hknown g (.tail _ hg))).after c
    simp only [Within, resumeAll, leads_bind, leads_get]
    refine leads_ite.2 ⟨fun _ => hnext .refl .refl fun _ _ _ hf => hf, fun hgrounded => ?_⟩
    rw [Bool.or_eq_false_iff] at hgrounded
    have herrand : Errand s ((queue f).after { s with inFlight := s.inFlight.add f.fileId }) :=
      .resumed f (hl.pending f (.head _)) hgrounded.2 (hl.kept f (.head _)) (hknown f (.head _))
    simp only [enterFlight, leads_bind, leads_modify, leads_attempt]
    refine ((leads_queue h.secluded h.balanced hgrounded.2 hl.wants).and (leads_answer _ _)).mono ?_ ?_
    · rintro e s₁ ⟨⟨_, hnot⟩, -, rfl⟩
      exact hnext (.single herrand) hnot.course hnot.others
    · rintro _ s₁ ⟨hqueued, -, rfl⟩
      simp only [leads_pure]
      exact hnext (.single herrand) hqueued.course hqueued.others

theorem errands_resumePending (h : s.Sound) : resumePending.Within Errand s := by
  rw [Within, resumePending, leads_bind]
  refine (Records.leads_findPending s).mono (fun _ _ hr => hr.2.errands) fun l s₁ ⟨hl, ha⟩ => ?_
  subst hl
  have hlists : ListsPending s₁ s.inventory.pendingFiles := by
    cases ha
    exact listsPending_pendingFiles h.balanced.named
  have hknown : ∀ f ∈ s.inventory.pendingFiles, s₁.Knows f.fileId := by
    intro f hf
    obtain ⟨id, hid⟩ := Table.mem_values.1 (List.mem_filter.1 hf).1
    have hname := h.balanced.named.files id f hid
    subst hname
    cases ha
    exact .inl (Table.contains_eq_true.2 ⟨f, hid⟩)
  exact (errands_resumeAll _ (ha.errands.sound h) hlists hknown).after ha.errands

end Transfers

namespace Jobs

theorem errands_administer (h : s.Sound) (r : RequestId) {next : JobStatus}
    (either : next = .paused ∨ next = .preparing) : (administer r next).Within Errand s :=
  (leads_administer h.secluded h.balanced.named r either).mono (fun _ _ c => Pursuits.errands c)
    fun _ _ c => Pursuits.errands c

theorem errands_fail (h : s.Sound) (r : RequestId) (message : String) :
    (fail r message).Within Errand s :=
  (leads_fail h.secluded h.balanced.named r message).mono (fun _ _ hc => hc.1.errands)
    fun _ _ hc => hc.1.errands

theorem errands_promote (h : s.Sound) (r : RequestId)
    (held : ∀ j, s.inventory.jobs.get? r = some j → AllHeld r j.retrievable s) :
    (promote r).Within Errand s :=
  (leads_promote h.secluded h.balanced.named r held).mono (fun _ _ c => Pursuits.errands c)
    fun _ _ c => Pursuits.errands c

theorem errands_assessEntries (r : RequestId) (expectRecords : Bool) :
    ∀ (l : List ManifestEntry) (waiting : Bool) {s : Site}, s.Sound →
      (∀ e ∈ l, e.kind.isCatalogue = false) →
        (assessEntries r expectRecords l waiting).Within Errand s
  | [], waiting, s, h, hl => by
    rw [assessEntries]
    exact .pure _ s
  | e :: rest, waiting, s, h, hl => by
    have hload : ∀ {s₁ : Site}, s₁.Sound → (Records.loadFile e.fileId).Within Errand s₁ := fun h₁ =>
      (Records.leads_loadFile h₁.secluded e.fileId).mono (fun _ _ hr => hr.2.errands)
        fun _ _ hr => hr.2.errands
    have hnext : ∀ {s₁ : Site} (waiting : Bool), Errands s s₁ →
        (assessEntries r expectRecords rest waiting).Within Errand s₁ := fun waiting c =>
      errands_assessEntries r expectRecords rest waiting (c.sound h) fun e' he' => hl e' (.tail _ he')
    simp only [assessEntries]
    suffices hask : ∀ {s₁ : Site}, Errands s s₁ → Within Errand _ s₁ by
      split
      · exact .bind (hload h) fun _ s₁ c => hask c
      · exact hask .refl
    intro s₁ c
    refine .bind (.attempt (.whole (.asked r e (hl e (.head _))))) fun answer s₂ c₂ => ?_
    have c : Errands s s₂ := c.trans c₂
    split
    · exact hnext _ c
    · exact hnext _ c
    · exact .bind (hload (c.sound h)) fun _ s₃ _ => .pure _ s₃
    · split
      · exact .pure _ s₂
      · exact .throw _ s₂

end Jobs

end Depot
