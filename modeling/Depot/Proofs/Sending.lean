import Depot.Proofs.Flights
import Depot.Proofs.Idling

/-!
# What operations do to transfers

Only the passage of time brings a transfer forward. What else a depot is asked to do leaves transfers alone,
or has more of them queued, which rest behind all other tasks until their turn comes. An operation does so in
sendings: idle work, a file that is asked for by a request, and one that is asked for by its record.

Where no call of the inventory is refused a file enters its flight together with its transfer, so what is in
flight is what has a transfer, before and after.

## Main statements

* `Sending.queues` — a sending adds transfers that rest, and nothing else concerns transfers.
* `Sending.matched` — it leaves those files in flight that have a transfer.
* `Jobs.sendings_poll`, `Jobs.sendings_create` — operations go on in sendings.
-/

namespace Depot

open Act Time

variable {α : Type} {s s' : Site}

/-! ### More transfers -/

/-- **Transfers are queued**: some come behind the tasks, and rest. Nothing is called for and no time passes. -/
structure Site.Queues (s s' : Site) : Prop where
  tasks : ∃ new : List FileRecord,
    s'.tasks = s.tasks ++ new.map fun f => .transfer ⟨f, .resting s.clock.elapsed⟩
  supply : s'.supply = s.supply
  clock : s'.clock = s.clock
  settings : s'.settings = s.settings
  log : Calmer s.log s'.log
  order : s.KeepsOrder s'

theorem Site.Idles.queues (h : s.Idles s') : s.Queues s' :=
  ⟨⟨[], by rw [h.tasks]; exact (List.append_nil _).symm⟩, h.supply, h.clock, h.settings, h.log, h.order⟩

namespace Site.Queues

theorem refl (s : Site) : s.Queues s := (Site.Idles.refl s).queues

theorem trans {s'' : Site} (h : s.Queues s') (h' : s'.Queues s'') : s.Queues s'' := by
  obtain ⟨new, hnew⟩ := h.tasks
  obtain ⟨new', hnew'⟩ := h'.tasks
  refine ⟨⟨new ++ new', ?_⟩, h'.supply.trans h.supply, h'.clock.trans h.clock,
    h'.settings.trans h.settings, h.log.trans h'.log, h.order.trans h'.order⟩
  rw [hnew', hnew, h.clock, List.map_append, List.append_assoc]

theorem of_course (c : Relation.ReflTransGen Site.Queues s s') : s.Queues s' := by
  induction c with
  | refl => exact .refl s
  | tail _ h ih => exact ih.trans h

/-- Files enter or leave their flight. -/
theorem flies (s : Site) (inFlight : KeySet FileId) : s.Queues { s with inFlight := inFlight } :=
  ⟨⟨[], (List.append_nil _).symm⟩, rfl, rfl, rfl, .refl _, .of_same rfl rfl rfl id⟩

/-- A transfer comes behind the tasks. -/
theorem joins (s : Site) (f : FileRecord) :
    s.Queues { s with tasks := s.tasks ++ [.transfer ⟨f, .resting s.clock.elapsed⟩] } :=
  ⟨⟨[f], rfl⟩, rfl, rfl, rfl, .refl _, .of_same rfl rfl rfl id⟩

end Site.Queues

/-- An operation that leaves transfers alone queues none. -/
theorem Act.Within.queues {x : Act α} (h : x.Within Site.Idles s) : x.Within Site.Queues s :=
  h.mono fun _ c => .single (Site.Idles.of_course c).queues

/-! ### Queueing -/

theorem Room.idles_reserve (id : FileId) (kb : UInt64) (s : Site) :
    (reserve id kb).Within Site.Idles s := by
  have hreserve : ∀ s : Site, (modify fun s : Site =>
      { s with account := s.account.reserve id kb } : Act Unit).Within Site.Idles s :=
    fun s => .modify (.single (.charges s _))
  refine .bind (.get s) fun t s₁ _ => ?_
  split
  · exact .pure _ s₁
  refine .bind (.get s₁) fun t s₂ _ => ?_
  dsimp only
  split
  · refine .bind (idles_evict _ s₂) fun done s₃ _ => ?_
    split
    · exact .bind (.get s₃) fun t s₄ _ => .throw_bind _ _ s₄
    · exact hreserve s₃
  · exact hreserve s₂

theorem Room.idles_release (id : FileId) (s : Site) : (release id).Within Site.Idles s :=
  .modify (.single (.charges s _))

namespace Records

theorem idles_addReference (id : FileId) (r : RequestId) (s : Site) :
    (addReference id r).Within Site.Idles s := by
  refine .bind (idles_reach _ s) fun _ s₁ _ => .bind (.get s₁) fun t s₂ _ => ?_
  split
  · have hnamed : ∀ v : Inventory, v.Named → (v.addReference id r).Named := fun _ hn =>
      ⟨hn.files, hn.jobs⟩
    exact idles_change hnamed s₂
  · exact .pure _ s₂

theorem idles_removeReference (id : FileId) (r : RequestId) (s : Site) :
    (removeReference id r).Within Site.Idles s := by
  refine .bind (idles_reach _ s) fun _ s₁ _ => .bind (.get s₁) fun t s₂ _ => ?_
  split
  · exact idles_change (fun _ hn => hn.removeReference id r) s₂
  · exact .pure _ s₂

end Records

namespace Transfers

theorem idles_unlock (f : FileRecord) (s : Site) : (unlock f).Within Site.Idles s := by
  unfold unlock
  split
  · refine .bind (Records.idles_loadFile _ s) fun found s₁ _ => ?_
    split
    · exact .bind (idles_now s₁) fun time s₂ _ => Records.idles_saveFile _ s₂
    · exact .pure _ s₁
  · exact .pure _ s

/-- At most one transfer is queued, whatever fails. -/
theorem queues_queue (f : FileRecord) (s : Site) : (queue f).Within Site.Queues s := by
  have hleave : ∀ (s : Site), (leaveFlight f.fileId).Within Site.Queues s := fun s =>
    .modify (.single (.flies s _))
  refine .bind (Within.attempt (Room.idles_reserve _ _ s)).queues fun reserved s₁ _ => ?_
  cases reserved with
  | error e =>
    exact .bind (idles_unlock f s₁).queues fun _ s₂ _ => .bind (hleave s₂) fun _ s₃ _ => .throw _ s₃
  | ok =>
    refine .bind (Within.attempt (Records.idles_saveFile f s₁)).queues fun saved s₂ _ => ?_
    cases saved with
    | error e =>
      exact .bind (Room.idles_release _ s₂).queues fun _ s₃ _ =>
        .bind (hleave s₃) fun _ s₄ _ => .throw _ s₄
    | ok =>
      refine .bind (idles_note rfl s₂).queues fun _ s₃ _ => ?_
      simp only [Within, leads_bind, leads_get, leads_join]
      exact .single (.joins s₃ f)

theorem queues_ensure (r : RequestId) (entry : ManifestEntry) (s : Site) :
    (ensure r entry).Within Site.Queues s := by
  unfold ensure
  split
  · exact .throw_bind _ _ s
  refine .bind (Records.idles_addReference _ _ s).queues fun _ s₁ _ => .bind (.get s₁) fun t s₂ _ => ?_
  split
  · exact .pure _ s₂
  refine .bind (Records.idles_loadFile _ s₂).queues fun found s₃ _ => .bind (.get s₃) fun t s₄ _ => ?_
  split
  · exact .pure _ s₄
  next f isNew _ =>
  refine .bind (.modify (.single (.flies s₄ _))) fun _ s₅ _ => ?_
  refine .bind (.attempt (queues_queue f s₅)) fun queued s₆ _ => ?_
  cases queued with
  | ok => exact .pure _ s₆
  | error e =>
    dsimp only
    split
    · exact .bind (Records.idles_removeReference _ _ s₆).queues fun _ s₇ _ => .throw _ s₇
    · exact .throw _ s₆

end Transfers

/-! ### Files in flight and transfers -/

/-- **What is in flight is what has a transfer.** -/
def Site.Matched (s : Site) : Prop :=
  ∀ id, s.inFlight.contains id = true ↔ ∃ t ∈ s.transfers, t.record.fileId = id

namespace Site.Matched

theorem of_same (h : s.Matched) (tasks : s'.tasks = s.tasks) (inFlight : s'.inFlight = s.inFlight) :
    s'.Matched := by
  intro id
  rw [Site.transfers, tasks, inFlight]
  exact h id

/-- A file enters its flight with its transfer. -/
theorem enters (h : s.Matched) (f : FileRecord) (phase : Phase)
    (tasks : s'.tasks = s.tasks ++ [.transfer ⟨f, phase⟩])
    (inFlight : s'.inFlight = s.inFlight.add f.fileId) : s'.Matched := by
  intro id
  have htransfers : s'.transfers = s.transfers ++ [⟨f, phase⟩] := by
    rw [Site.transfers, tasks, List.filterMap_append]
    rfl
  rw [inFlight, KeySet.contains_add, htransfers]
  constructor
  · rintro (rfl | hflying)
    · exact ⟨_, List.mem_append_right _ (.head _), rfl⟩
    · obtain ⟨t, ht, hid⟩ := (h id).1 hflying
      exact ⟨t, List.mem_append_left _ ht, hid⟩
  · rintro ⟨t, ht, hid⟩
    rcases List.mem_append.1 ht with ht | ht
    · exact .inr ((h id).2 ⟨t, ht, hid⟩)
    · rw [List.mem_singleton.1 ht] at hid
      exact .inl hid.symm

theorem evictions (h : s.Matched) (e : Evictions s s') : s'.Matched :=
  h.of_same e.frame.tasks e.frame.inFlight

end Site.Matched

namespace Transfers

variable {f : FileRecord} {r : RequestId} {entry : ManifestEntry}

theorem Dispatched.matched (c : Dispatched f s s') (h : s.Matched) : s'.Matched := by
  cases c with
  | intro account evictions => exact (h.evictions evictions).enters f _ rfl rfl

theorem TurnedAway.matched (c : TurnedAway f s s') (h : s.Matched) : s'.Matched := by
  cases c with
  | left evictions => exact h.evictions evictions
  | unlocked evictions => exact (h.evictions evictions).of_same rfl rfl

theorem Reply.matched {answer : Except Failure FileStatus} (c : Reply r entry s answer s')
    (h : s.Matched) : s'.Matched := by
  have hattached : (s.attach entry.fileId r).Matched := h.of_same rfl rfl
  cases c with
  | flying | settled => exact hattached
  | dispatched _ _ sent => exact sent.matched hattached
  | turnedAway _ _ _ _ left =>
    split
    · exact (left.matched hattached).of_same rfl rfl
    · exact left.matched hattached

end Transfers

/-! ### Sendings -/

/-- **A piece of work of an operation**, as far as transfers are concerned. -/
inductive Sending : Site → Site → Prop
  | idle {s s' : Site} (h : s.Idles s') : Sending s s'
  /-- A file is asked for by a request. -/
  | asked {s : Site} (r : RequestId) (entry : ManifestEntry)
      (retrievable : entry.kind.isCatalogue = false) : Sending s ((Transfers.ensure r entry).after s)
  /-- A file is asked for by its record. -/
  | resumed {s : Site} (f : FileRecord) (grounded : s.inFlight.contains f.fileId = false) :
      Sending s ((Transfers.queue f).after { s with inFlight := s.inFlight.add f.fileId })

/-- A course of sendings. -/
abbrev Sendings : Site → Site → Prop := Relation.ReflTransGen Sending

/-- **A sending queues transfers**, and nothing else concerns them. -/
theorem Sending.queues (c : Sending s s') : s.Queues s' := by
  cases c with
  | idle h => exact h.queues
  | asked r entry => exact .of_course (Leads.after (Transfers.queues_ensure r entry s))
  | resumed f =>
    exact (Site.Queues.flies s _).trans (.of_course (Leads.after (Transfers.queues_queue f _)))

/-- **What is in flight after a sending is what has a transfer**, if it was so before. -/
theorem Sending.matched (c : Sending s s') (h : s.Orderly) (matched : s.Matched) : s'.Matched := by
  cases c with
  | idle h => exact matched.of_same h.tasks h.inFlight
  | asked r entry retrievable =>
    exact Leads.after ((Transfers.leads_ensure_of_quiet h.quiet h.named r retrievable).mono
      (fun _ _ c => c.matched matched) fun _ _ c => c.matched matched)
  | resumed f grounded =>
    exact Leads.after ((Transfers.leads_queue_of_quiet h.quiet h.named grounded).mono
      (fun _ _ ⟨_, c⟩ => c.matched matched) fun _ _ c => c.matched matched)

namespace Sendings

theorem queues (c : Sendings s s') : s.Queues s' := by
  induction c with
  | refl => exact .refl s
  | tail _ d ih => exact ih.trans d.queues

theorem matched (c : Sendings s s') (h : s.Orderly) (matched : s.Matched) : s'.Matched := by
  induction c with
  | refl => exact matched
  | tail c d ih => exact d.matched ((Sendings.queues c).order.orderly h) ih

end Sendings

/-- Idle work is a sending. -/
theorem Act.Within.sendings {x : Act α} (h : x.Within Site.Idles s) : x.Within Sending s :=
  h.mono fun _ c => .single (.idle (.of_course c))

/-! ### Operations -/

namespace Transfers

theorem sendings_ensure (r : RequestId) (entry : ManifestEntry) (s : Site) :
    (ensure r entry).Within Sending s := by
  cases hkind : entry.kind.isCatalogue with
  | true => rw [Within, ensure, hkind, if_pos rfl, leads_bind, leads_throw]
  | false => exact .whole (.asked r entry hkind)

theorem sendings_resumeAll : ∀ (l : List FileRecord) (s : Site), (resumeAll l).Within Sending s
  | [], s => .pure _ s
  | f :: rest, s => by
    have hnext := sendings_resumeAll rest
    simp only [Within, resumeAll, leads_bind, leads_get]
    refine leads_ite.2 ⟨fun _ => hnext s, fun hgrounded => ?_⟩
    rw [Bool.or_eq_false_iff] at hgrounded
    have hsending := Sending.resumed f hgrounded.2
    simp only [enterFlight, leads_bind, leads_modify, leads_attempt]
    refine (leads_answer (queue f) _).mono ?_ ?_
    · rintro e s₁ ⟨-, rfl⟩
      exact Within.after (hnext _) (.single hsending)
    · rintro _ s₁ ⟨-, rfl⟩
      simp only [leads_pure]
      exact Within.after (hnext _) (.single hsending)

theorem sendings_resumePending (s : Site) : resumePending.Within Sending s :=
  .bind (Records.idles_findPending s).sendings fun l s₁ _ => sendings_resumeAll l s₁

end Transfers

namespace Jobs

theorem sendings_assessEntries (r : RequestId) (expectRecords : Bool) :
    ∀ (l : List ManifestEntry) (waiting : Bool) (s : Site),
      (assessEntries r expectRecords l waiting).Within Sending s
  | [], waiting, s => .pure _ s
  | e :: rest, waiting, s => by
    have hnext := fun waiting => sendings_assessEntries r expectRecords rest waiting
    have hload : ∀ s : Site, (Records.loadFile e.fileId).Within Sending s := fun s =>
      (Records.idles_loadFile e.fileId s).sendings
    simp only [assessEntries]
    suffices hask : ∀ {s₁ : Site}, Within Sending _ s₁ by
      split
      · exact .bind (hload s) fun _ s₁ _ => hask
      · exact hask
    intro s₁
    refine .bind (.attempt (Transfers.sendings_ensure r e s₁)) fun answer s₂ _ => ?_
    split
    · exact hnext _ s₂
    · exact hnext _ s₂
    · exact .bind (hload s₂) fun _ s₃ _ => .pure _ s₃
    · split
      · exact .pure _ s₂
      · exact .throw _ s₂

theorem sendings_create (r : RequestId) (mode : DownloadMode) (manifest : List ManifestEntry)
    (s : Site) : (create r mode manifest).Within Sending s := by
  refine .bind (idles_now s).sendings fun time s₁ _ => ?_
  refine .bind (Records.idles_loadJob r s₁).sendings fun found s₂ _ => ?_
  dsimp only
  split
  · exact .throw_bind _ _ s₂
  refine .bind (Records.idles_saveJob _ s₂).sendings fun _ s₃ _ => ?_
  refine .bind (idles_packageAll r _ s₃).sendings fun lost s₄ _ => ?_
  split
  · exact (idles_fail r _ s₄).sendings
  refine .bind (sendings_assessEntries _ _ _ _ s₄) fun result s₅ _ => ?_
  cases result with
  | ready => exact (idles_promote r s₅).sendings
  | failed message => exact (idles_fail r message s₅).sendings
  | waiting => exact (idles_find r s₅).sendings

theorem sendings_advance (job : Job) (p : Report) (s : Site) : (advance job p).Within Sending s := by
  refine .bind (sendings_assessEntries _ _ _ _ s) fun result s₁ _ => ?_
  cases result with
  | ready => exact .bind (idles_promote _ s₁).sendings fun _ s₂ _ => .pure _ s₂
  | failed message => exact (idles_reportFailure _ message p s₁).sendings
  | waiting =>
    refine .bind (.get s₁) fun t s₂ _ => .bind (idles_now s₂).sendings fun time s₃ _ => ?_
    split
    · exact (idles_reportFailure _ _ p s₃).sendings
    · exact .pure _ s₃

theorem sendings_advanceAll : ∀ (l : List Job) (p : Report) (s : Site),
    (advanceAll l p).Within Sending s
  | [], p, s => .pure _ s
  | job :: rest, p, s => by
    refine .bind (.attempt (sendings_advance job p s)) fun answer s₁ _ => ?_
    cases answer with
    | ok p => exact sendings_advanceAll rest p s₁
    | error => exact sendings_advanceAll rest p s₁

theorem sendings_poll (s : Site) : poll.Within Sending s := by
  refine .bind (Records.idles_findByStatus _ s).sendings fun l s₁ _ => ?_
  refine .bind (sendings_advanceAll l {} s₁) fun p s₂ _ => .bind (idles_now s₂).sendings fun time s₃ _ => ?_
  refine .bind (Records.idles_findByStatus _ s₃).sendings fun l' s₄ _ => ?_
  exact (idles_expireAll time l' p s₄).sendings

end Jobs

end Depot
