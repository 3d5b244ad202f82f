import Depot.Proofs.Creation
import Depot.Proofs.Expiry
import Depot.Proofs.Pinning
import Depot.Proofs.References
import Depot.Proofs.Requests

/-!
# What becomes of a new job

The creation of a job answers with the job as it is stored then. Which status it has is decided in this order: a
catalogue that cannot be packaged ends it; or else the first file that is denied does, because it has failed or
there is no room for it; or else, if all files are there, an expiry beyond the end of the calendar. Otherwise it is
ready if all files are there, and if not it is being prepared, with every file provided for it.

Each file is asked for at the site that the files before it have left, so what was answered for one need not be
answered for it elsewhere. `Site.askEach` goes through the files as the job does, up to the first that is denied,
and what holds from one file to the next holds of it by induction (`Site.askEach_induction`).

## Main statements

* `Jobs.leads_assessEntries_askEach` — what is found when the files of a job are asked for.
* `Transfers.Reply.denies_iff` — when a file is denied.
* `Site.clean_ask` — nothing is left of a request for an unknown file that is turned away.
* `new_jobs_are_judged` — which status a new job has, and why.
-/

namespace Depot

open Act Time Transfers

variable {s s' : Site} {E : Failure → Site → Prop} {r : RequestId} {id : FileId} {e : ManifestEntry}
  {l : List ManifestEntry}

/-! ### Files asked for one after another -/

/-- Whether an answer denies a file: it has failed, or there is no room for it. -/
def Transfers.denies : Except Failure FileStatus → Bool
  | .ok .failed | .error (.capacityExceeded ..) => true
  | _ => false

/-- **What comes of asking for files one after another**, up to the first that is denied: the answers, and the
site then. -/
def Site.askEach (s : Site) (r : RequestId) :
    List ManifestEntry → List (Except Failure FileStatus) × Site
  | [] => ([], s)
  | e :: rest =>
    let answer := (ensure r e).answer s
    let asked := (ensure r e).after s
    if denies answer then ([answer], asked)
    else (answer :: (asked.askEach r rest).1, (asked.askEach r rest).2)

theorem Site.askEach_cons_of_denied (denied : denies ((ensure r e).answer s) = true) :
    s.askEach r (e :: l) = ([(ensure r e).answer s], (ensure r e).after s) := by
  rw [askEach, denied, if_pos rfl]

theorem Site.askEach_cons_of_sound (sound : denies ((ensure r e).answer s) = false) :
    s.askEach r (e :: l) = ((ensure r e).answer s :: (((ensure r e).after s).askEach r l).1,
      (((ensure r e).after s).askEach r l).2) := by
  rw [askEach, sound, if_neg Bool.false_ne_true]

/-- **What asking for each file keeps is kept by asking for all.** -/
theorem Site.askEach_induction {P : Site → Prop} (start : P s)
    (step : ∀ e ∈ l, ∀ t, P t → P ((ensure r e).after t)) : P (s.askEach r l).2 := by
  induction l generalizing s with
  | nil => exact start
  | cons e l ih =>
    have hasked := step e (.head _) s start
    cases hdenied : denies ((ensure r e).answer s) with
    | true => rwa [askEach_cons_of_denied hdenied]
    | false =>
      rw [askEach_cons_of_sound hdenied]
      exact ih hasked fun e' he' => step e' (.tail _ he')

/-- What is answered for a file is the answer where the files before it have been asked for; a file that is denied is
the last that is asked for. -/
theorem Site.askEach_at {i : Nat} {answer : Except Failure FileStatus} (entry : l[i]? = some e)
    (answered : (s.askEach r l).1[i]? = some answer) :
    (ensure r e).answer (s.askEach r (l.take i)).2 = answer ∧
      (denies answer = true → (s.askEach r l).2 = (ensure r e).after (s.askEach r (l.take i)).2) := by
  induction l generalizing s i with
  | nil => cases entry
  | cons e' l ih =>
    cases hdenied : denies ((ensure r e').answer s) with
    | true =>
      rw [askEach_cons_of_denied hdenied] at answered ⊢
      cases i with
      | zero =>
        obtain rfl := Option.some.inj entry
        exact ⟨Option.some.inj answered, fun _ => rfl⟩
      | succ i => cases answered
    | false =>
      rw [askEach_cons_of_sound hdenied] at answered ⊢
      cases i with
      | zero =>
        obtain rfl := Option.some.inj entry
        have hanswer : (ensure r e').answer s = answer := Option.some.inj answered
        refine ⟨hanswer, fun hlast => ?_⟩
        rw [← hanswer, hdenied] at hlast
        cases hlast
      | succ i =>
        rw [List.take_succ_cons, askEach_cons_of_sound hdenied]
        exact ih entry answered

namespace Transfers

theorem needOf_eq_failed_iff (e : ManifestEntry) (kb : UInt64) {found : Option FileRecord} :
    needOf e kb found = .settled .failed ↔ ∃ f, found = some f ∧ f.failed = true := by
  cases found with
  | none => simp [needOf]
  | some f =>
    simp only [needOf, Option.some.injEq, exists_eq_left']
    cases f.failed with
    | true => simp
    | false => cases f.available && f.sizeKb.isSome <;> simp

theorem needOf_eq_available_iff (e : ManifestEntry) (kb : UInt64) {found : Option FileRecord} :
    needOf e kb found = .settled .available ↔ ∃ f, found = some f ∧ f.IsThere := by
  refine ⟨isThere_of_needOf, ?_⟩
  rintro ⟨f, rfl, hthere⟩
  simp only [needOf, hthere.sound, hthere.available, hthere.sized, Bool.false_eq_true, if_false, Bool.and_self,
    if_true]

/-- **A file is denied** if it has failed, or if there is no room for it. -/
theorem Reply.denies_iff {answer : Except Failure FileStatus} (c : Reply r e s answer s') :
    denies answer = true ↔
      (s.inFlight.contains e.fileId = false ∧ ∃ f, s.inventory.files.get? e.fileId = some f ∧ f.failed = true) ∨
      ∃ kb room, answer = .error (.capacityExceeded kb room) := by
  rw [← needOf_eq_failed_iff e s.settings.defaultEstimateKb]
  cases c with
  | flying flying => simp [denies, flying]
  | @settled status grounded need => cases status <;> simp [denies, grounded, need]
  | dispatched grounded need => simp [denies, need]
  | turnedAway kb room => simp [denies]

/-- **A file is available** if it is there and not on its way once more. -/
theorem Reply.available_iff {answer : Except Failure FileStatus} (c : Reply r e s answer s') :
    answer = .ok .available ↔
      s.inFlight.contains e.fileId = false ∧ ∃ f, s.inventory.files.get? e.fileId = some f ∧ f.IsThere := by
  rw [← needOf_eq_available_iff e s.settings.defaultEstimateKb]
  cases c with
  | flying flying => simp [flying]
  | @settled status grounded need => cases status <;> simp [grounded, need]
  | dispatched grounded need => simp [need]
  | turnedAway kb room _ need => simp [need]

theorem reply_ensure (h : s.Quiet) (hn : s.inventory.Named) (r : RequestId)
    (retrievable : e.kind.isCatalogue = false) :
    Reply r e s ((ensure r e).answer s) ((ensure r e).after s) := by
  obtain ⟨hanswer, hafter⟩ := run_ensure h hn r retrievable
  rw [hanswer, hafter]
  exact reply_ask h hn r retrievable

/-- What is not denied will be there. -/
theorem Reply.sound {answer : Except Failure FileStatus} (c : Reply r e s answer s')
    (sound : denies answer = false) : ∃ status, answer = .ok status ∧ status ≠ .failed := by
  rcases c.answer_cases with ⟨status, rfl⟩ | ⟨kb, room, rfl⟩
  · refine ⟨status, rfl, ?_⟩
    rintro rfl
    cases sound
  · cases sound

/-- An unknown file that gets a record is in flight then. -/
theorem Reply.absent_or_flies {answer : Except Failure FileStatus} (c : Reply r e s answer s')
    (h : s.inventory.files.get? id = none ∨ s.inFlight.contains id = true) :
    s'.inventory.files.get? id = none ∨ s'.inFlight.contains id = true := by
  have hevictions : ∀ {t}, Evictions (s.attach e.fileId r) t →
      t.inventory.files.get? id = none ∨ t.inFlight.contains id = true := by
    intro t ht
    rw [ht.frame.inFlight]
    exact h.imp_left ht.get?_eq_none
  cases c with
  | flying | settled => exact h
  | @dispatched f _ _ _ _ sent =>
    cases sent with
    | @intro t account ht =>
      have hflies := fun hid => (KeySet.contains_add t.inFlight f.fileId id).2 hid
      by_cases hid : id = f.fileId
      · exact .inr (hflies (.inl hid))
      · refine (hevictions ht).imp (fun habsent => ?_) fun hflying => hflies (.inr hflying)
        exact (Inventory.get?_saveFile_of_ne _ hid).trans habsent
  | @turnedAway f isNew t _ _ _ _ left =>
    have hleft : t.inventory.files.get? id = none ∨ t.inFlight.contains id = true := by
      cases left with
      | left ht => exact hevictions ht
      | @unlocked t ht _ kept =>
        refine (hevictions ht).imp_left fun habsent => ?_
        have hne : id ≠ ({ f with unlockAt := some t.clock.now } : FileRecord).fileId := by
          rintro rfl
          have hkept : t.inventory.files.contains f.fileId = true := kept
          rw [Table.contains_eq_false.2 habsent] at hkept
          cases hkept
        exact (Inventory.get?_saveFile_of_ne _ hne).trans habsent
    split
    · exact hleft.imp_left
        (congrArg (Table.get? · id) (Inventory.files_removeReference ..)).trans
    · exact hleft

end Transfers

section AskEach

variable (h : s.Quiet) (hn : s.inventory.Named) (hl : ∀ e ∈ l, e.kind.isCatalogue = false)

include h hn hl

/-- Asking for files keeps the depot in order, and no live job loses what is provided for it. -/
theorem Site.upholds_askEach (r : RequestId) :
    (s.askEach r l).2.Quiet ∧ (s.askEach r l).2.inventory.Named ∧ s.Upholds (s.askEach r l).2 := by
  refine askEach_induction (P := fun t => t.Quiet ∧ t.inventory.Named ∧ s.Upholds t) ⟨h, hn, .refl s⟩ ?_
  rintro e he t ⟨ht, htn, hupheld⟩
  have hreply := reply_ensure ht htn r (hl e he)
  exact ⟨hreply.quiet ht, hreply.named htn, hupheld.trans (hreply.upholds htn)⟩

/-- A file that was unknown gets a record only as its transfer is queued. -/
theorem Site.absent_or_flies_askEach (r : RequestId) (absent : s.inventory.files.get? id = none) :
    (s.askEach r l).2.inventory.files.get? id = none ∨ (s.askEach r l).2.inFlight.contains id = true := by
  have hkept := askEach_induction (s := s) (r := r) (l := l)
    (P := fun t => (t.Quiet ∧ t.inventory.Named) ∧
      (t.inventory.files.get? id = none ∨ t.inFlight.contains id = true)) ⟨⟨h, hn⟩, .inl absent⟩ ?_
  · exact hkept.2
  rintro e he t ⟨⟨ht, htn⟩, hid⟩
  have hreply := reply_ensure ht htn r (hl e he)
  exact ⟨⟨hreply.quiet ht, hreply.named htn⟩, hreply.absent_or_flies hid⟩

end AskEach

/-- **Where no file is denied each is provided** for a live job. -/
theorem Site.provides_askEach (h : s.Quiet) (hn : s.inventory.Named) (live : s.inventory.Lives r)
    (hl : ∀ e ∈ l, e.kind.isCatalogue = false) (sound : ∀ a ∈ (s.askEach r l).1, denies a = false) :
    ∀ e ∈ l, (s.askEach r l).2.Provides r e.fileId := by
  induction l generalizing s with
  | nil => exact fun e he => by cases he
  | cons e l ih =>
    have hrest : ∀ e' ∈ l, e'.kind.isCatalogue = false := fun e' he' => hl e' (.tail _ he')
    have hreply := reply_ensure h hn r (hl e (.head _))
    have hlive := (hreply.upholds hn).lives live
    have hgranted : denies ((ensure r e).answer s) = false := by
      cases hdenied : denies ((ensure r e).answer s) with
      | false => rfl
      | true =>
        rw [askEach_cons_of_denied hdenied] at sound
        exact hdenied.symm.trans (sound _ (.head _))
    rw [askEach_cons_of_sound hgranted] at sound ⊢
    intro e' he'
    rcases List.mem_cons.1 he' with rfl | he'
    · obtain ⟨status, hstatus, hsound⟩ := hreply.sound hgranted
      obtain ⟨-, -, hupheld⟩ := upholds_askEach (hreply.quiet h) (hreply.named hn) hrest r
      rw [hstatus] at hreply
      exact hupheld.provides _ _ hlive (hreply.provides hn live hsound)
    · exact ih (hreply.quiet h) (hreply.named hn) hlive hrest (fun a ha => sound a (.tail _ ha)) e' he'

/-! ### Requests that leave nothing -/

/-- **Nothing is left of a request for a file**: it has no record and no reservation, it is not in flight, and the
request does not refer to it. -/
structure Site.Clean (s : Site) (r : RequestId) (id : FileId) : Prop where
  absent : s.inventory.files.get? id = none
  free : s.account.isReserved id = false
  grounded : s.inFlight.contains id = false
  unreferred : s.inventory.refers id r = false

/-- **Nothing is left of a request for an unknown file that is turned away.** -/
theorem Site.clean_ask (hn : s.inventory.Named) (absent : s.inventory.files.get? e.fileId = none)
    {kb : UInt64} {room : Int} (refused : (s.ask r e).1 = .error (.capacityExceeded kb room)) :
    (s.ask r e).2.Clean r e.fileId := by
  have hnamed : (s.attach e.fileId r).inventory.Named := ⟨hn.files, hn.jobs⟩
  have hgrounded : s.inFlight.contains e.fileId = false := by
    cases hflying : s.inFlight.contains e.fileId with
    | false => rfl
    | true => rw [ask_of_flying hflying] at refused; cases refused
  let f := FileRecord.ofEntry e s.settings.defaultEstimateKb
  have hneed : needOf e s.settings.defaultEstimateKb (s.inventory.files.get? e.fileId) = .transfer f true := by
    rw [absent, needOf]
  have hfull : (s.attach e.fileId r).grants f = false := by
    cases hgranted : (s.attach e.fileId r).grants f with
    | false => rfl
    | true => rw [ask_of_granted hgrounded hneed hgranted] at refused; cases refused
  have hgone : ((s.attach e.fileId r).makeRoom f).inventory.files.get? e.fileId = none :=
    (kept_makeRoom _ f (stays_of_absent hnamed absent)).1.trans absent
  have hsame : ((s.attach e.fileId r).makeRoom f).turnAway f = (s.attach e.fileId r).makeRoom f :=
    turnAway_of_absent hgone
  rw [ask_of_refused hgrounded hneed hfull, if_pos rfl, hsame]
  refine ⟨?_, (full_makeRoom hnamed hfull).free, ?_, Inventory.refers_removeReference_self ..⟩
  · exact (congrArg (Table.get? · _) (Inventory.files_removeReference ..)).trans hgone
  · rw [makeRoom_eq]
    exact hgrounded

/-- Among files asked for one after another, too. -/
theorem Site.clean_askEach (h : s.Quiet) (hn : s.inventory.Named) (hl : ∀ e ∈ l, e.kind.isCatalogue = false)
    {i : Nat} {kb : UInt64} {room : Int} (entry : l[i]? = some e)
    (refused : (s.askEach r l).1[i]? = some (.error (.capacityExceeded kb room)))
    (absent : s.inventory.files.get? e.fileId = none ∨
      (s.askEach r (l.take i)).2.inventory.files.get? e.fileId = none) :
    (s.askEach r l).2.Clean r e.fileId := by
  obtain ⟨hanswer, hafter⟩ := askEach_at entry refused
  have hbefore : ∀ e ∈ l.take i, e.kind.isCatalogue = false := fun e he => hl e (List.mem_of_mem_take he)
  have hkind := hl e (List.mem_of_getElem? entry)
  obtain ⟨ht, htn, -⟩ := upholds_askEach h hn hbefore r
  obtain ⟨hask, hasked⟩ := run_ensure ht htn r hkind
  rw [hask] at hanswer
  have habsent : (s.askEach r (l.take i)).2.inventory.files.get? e.fileId = none := by
    rcases absent with habsent | habsent
    · refine (absent_or_flies_askEach h hn hbefore r habsent).resolve_right fun hflying => ?_
      rw [ask_of_flying hflying] at hanswer
      cases hanswer
    · exact habsent
  rw [hafter rfl, hasked]
  exact clean_ask htn habsent hanswer

/-! ### What is found of a job's files -/

namespace Jobs

/-- What is found of files, by what was answered for each, when some were awaited already or none were. -/
def Judged (answers : List (Except Failure FileStatus)) (waiting : Bool) : Assessment → Prop
  | .ready => waiting = false ∧ ∀ a ∈ answers, a = .ok .available
  | .waiting => (∀ a ∈ answers, denies a = false) ∧ (waiting = true ∨ .ok .pending ∈ answers)
  | .failed _ => ∃ a ∈ answers, denies a = true

theorem Judged.cons {answers : List (Except Failure FileStatus)} {waiting : Bool} {status : FileStatus}
    {result : Assessment} (sound : status ≠ .failed)
    (h : Judged answers (waiting || status = .pending) result) :
    Judged (.ok status :: answers) waiting result := by
  cases result with
  | ready =>
    obtain ⟨hwaiting, hall⟩ := h
    rw [Bool.or_eq_false_iff, decide_eq_false_iff_not] at hwaiting
    refine ⟨hwaiting.1, List.forall_mem_cons.2 ⟨?_, hall⟩⟩
    cases status with
    | available => rfl
    | pending => exact absurd rfl hwaiting.2
    | failed => exact absurd rfl sound
  | waiting =>
    obtain ⟨hsound, hwaiting⟩ := h
    refine ⟨List.forall_mem_cons.2 ⟨?_, hsound⟩, ?_⟩
    · cases status with
      | failed => exact absurd rfl sound
      | available | pending => rfl
    · rw [Bool.or_eq_true, decide_eq_true_eq, or_assoc] at hwaiting
      refine hwaiting.imp_right fun hpending => ?_
      rcases hpending with rfl | hpending
      · exact .head _
      · exact .tail _ hpending
  | failed message =>
    obtain ⟨a, ha, hdenied⟩ := h
    exact ⟨a, .tail _ ha, hdenied⟩

/-- **What is found when the files of a job are asked for.** -/
theorem leads_assessEntries_askEach (r : RequestId) (expectRecords : Bool) :
    ∀ (l : List ManifestEntry) (waiting : Bool) {s : Site}, s.Quiet → s.inventory.Named →
      (∀ e ∈ l, e.kind.isCatalogue = false) →
        Leads (assessEntries r expectRecords l waiting) (fun _ _ => False)
          (fun result s' => s' = (s.askEach r l).2 ∧ Judged (s.askEach r l).1 waiting result) s
  | [], waiting, s, h, hn, hl => by
    rw [assessEntries, leads_pure]
    refine ⟨rfl, ?_⟩
    cases waiting with
    | true => exact ⟨fun a ha => (by cases ha), .inl rfl⟩
    | false => exact ⟨rfl, fun a ha => by cases ha⟩
  | e :: rest, waiting, s, h, hn, hl => by
    have hrest : ∀ e' ∈ rest, e'.kind.isCatalogue = false := fun e' he' => hl e' (.tail _ he')
    have hreply := reply_ensure h hn r (hl e (.head _))
    have h₁ := hreply.quiet h
    simp only [assessEntries]
    suffices hmain : Leads _ (fun _ _ => False)
        (fun result s' => s' = (s.askEach r (e :: rest)).2 ∧ Judged (s.askEach r (e :: rest)).1 waiting result)
        s by
      refine leads_ite.2 ⟨fun _ => ?_, fun _ => hmain⟩
      rw [leads_bind, Records.leads_loadFile_of_quiet h]
      exact hmain
    rw [leads_bind, leads_attempt]
    refine (leads_answer (ensure r e) s).mono ?_ ?_
    · rintro failure _ ⟨hanswer, rfl⟩
      rcases hreply.answer_cases with ⟨status, hok⟩ | ⟨kb, room, hfull⟩
      · cases hanswer.symm.trans hok
      · obtain rfl := Except.error.inj (hanswer.symm.trans hfull)
        have hdenied : denies ((ensure r e).answer s) = true := by rw [hanswer]; rfl
        rw [leads_pure, Site.askEach_cons_of_denied hdenied]
        exact ⟨rfl, _, .head _, hdenied⟩
    · rintro status _ ⟨hanswer, rfl⟩
      have hnext : status ≠ .failed →
          Leads (assessEntries r expectRecords rest (waiting || status = .pending)) (fun _ _ => False)
            (fun result s' => s' = (s.askEach r (e :: rest)).2 ∧
              Judged (s.askEach r (e :: rest)).1 waiting result) ((ensure r e).after s) := by
        intro sound
        have hgranted : denies ((ensure r e).answer s) = false := by
          rw [hanswer]
          cases status with
          | failed => exact absurd rfl sound
          | available | pending => rfl
        rw [Site.askEach_cons_of_sound hgranted, hanswer]
        exact (leads_assessEntries_askEach r expectRecords rest _ h₁ (hreply.named hn) hrest).mono
          (fun _ _ hfalse => hfalse) fun _ _ hjudged => ⟨hjudged.1, hjudged.2.cons sound⟩
      cases status with
      | available => simpa using hnext (by decide)
      | pending => simpa using hnext (by decide)
      | failed =>
        have hdenied : denies ((ensure r e).answer s) = true := by rw [hanswer]; rfl
        simp only [leads_bind, leads_pure]
        rw [Records.leads_loadFile_of_quiet h₁, Site.askEach_cons_of_denied hdenied]
        exact ⟨rfl, _, .head _, hdenied⟩

end Jobs

/-! ### How a job ends its preparation -/

/-- A job that has ended in an error, as it is written. -/
def Job.failedAt (j : Job) (message : String) (time : Instant) : Job :=
  { j with status := .error, modifiedAt := time, errorMessage := some message }

/-- The site when a job has ended in an error. -/
def Site.failJob (s : Site) (message : String) (j : Job) : Site :=
  s.amend (fun j => j.failedAt message s.clock.now) (fun j => .failed j.requestId message) j

namespace Jobs

variable {j : Job}

/-- **How a job that is being prepared ends in an error.** -/
theorem leads_fail_iff (h : s.Quiet) (kept : s.inventory.jobs.get? r = some j)
    (preparing : j.status = .preparing) (message : String) {Q : Job → Site → Prop} :
    Leads (fail r message) E Q s ↔ Q (j.failedAt message s.clock.now) (s.failJob message j) := by
  have hmoves : j.status.canBecome .error = true := by rw [preparing]; rfl
  simp only [fail, apply, leads_bind, leads_now]
  rw [leads_find_of_quiet h kept, if_neg (by simpa using preparing)]
  simp only [leads_bind, leads_pure]
  rw [leads_move, hmoves]
  simp only [forall_true_left, Bool.true_eq_false, false_implies, and_true]
  rw [leads_saveJob_tell_of_quiet h]
  rfl

/-- **Whether a job that is being prepared becomes ready**: unless it would expire after the end of the
calendar. -/
theorem leads_promote_status (h : s.Quiet) (hn : s.inventory.Named) (kept : s.inventory.jobs.get? r = some j)
    (preparing : j.status = .preparing) :
    Leads (promote r) (fun _ _ => False)
      (fun j' _ => j'.status =
        if (s.clock.now.addMillis? (s.settings.ttlMs j.mode)).isSome then .ready else .error) s := by
  simp only [promote, leads_bind, leads_now, leads_get]
  rw [leads_find_of_quiet h kept]
  cases hexpiry : s.clock.now.addMillis? (s.settings.ttlMs j.mode) with
  | none =>
    rw [leads_fail_iff h kept preparing]
    rfl
  | some expiry =>
    simp only [apply, leads_bind]
    rw [leads_find_of_quiet h kept, if_neg (by simpa using preparing)]
    simp only [leads_bind, leads_pure]
    refine (leads_keepUntil_of_quiet expiry j.retrievable h hn).mono (fun _ _ hfalse => hfalse) ?_
    rintro _ s' ⟨v, hv, rfl⟩
    have hkept : ({ s with inventory := v } : Site).Quiet := h.of_same rfl rfl rfl
    refine leads_move.2 ⟨fun _ => ?_, fun hnot => by rw [preparing] at hnot; cases hnot⟩
    refine (leads_saveJob_tell_of_quiet hkept _ _).2 ?_
    rfl

/-- A job that ends its preparation is stored as it is then. -/
theorem Concludes.stored (c : Concludes r s j s') : s'.inventory.jobs.get? r = some j := by
  cases c with
  | stays kept => exact kept
  | leaves n kept preparing relocks id =>
    rw [← id]
    exact Inventory.get?_saveJob_self ..

/-- It loses nothing that is provided for it. -/
theorem Concludes.provides (c : Concludes r s j s') (h : s.Provides r id) : s'.Provides r id := by
  cases c with
  | stays => exact h
  | leaves n kept preparing relocks => exact h.relocks relocks rfl rfl rfl

end Jobs

/-! ### Catalogues -/

/-- The site when a new job has been stored and its catalogues have been packaged. -/
def Site.enrol (s : Site) (job : Job) : Site :=
  { s with
    inventory := s.inventory.saveJob job
    log := s.log ++ job.catalogues.map fun e => .packaged job.requestId e.fileId true }

namespace Jobs

/-- A packager that leaves jobs alone does nothing but to say how it went. -/
theorem Package.eq_of_discreet {ok : Bool} (c : Package r id ok s s') (discreet : s.Discreet) :
    ∃ more, s' = { s with log := s.log ++ more } ∧ (ok = true → more = [.packaged r id true]) := by
  cases c with
  | nobody => exact ⟨[], by rw [List.append_nil], nofun⟩
  | tried => exact ⟨_, rfl, fun hok => by rw [hok]⟩
  | meddled present loud => exact absurd ⟨_, _, present, loud⟩ (discreet.not_meddles id)

theorem Packed.eq_of_discreet {lost : Option FileId} (c : Packed r l lost s s') (discreet : s.Discreet) :
    ∃ more, s' = { s with log := s.log ++ more } ∧
      (lost = none → more = l.map fun e => .packaged r e.fileId true) := by
  induction c with
  | all => exact ⟨[], by rw [List.append_nil], fun _ => rfl⟩
  | next first _ ih =>
    obtain ⟨more₁, rfl, hfirst⟩ := first.eq_of_discreet discreet
    obtain ⟨more₂, rfl, hlater⟩ := ih discreet
    refine ⟨more₁ ++ more₂, by rw [List.append_assoc], fun hnone => ?_⟩
    rw [hfirst rfl, hlater hnone, List.map_cons, List.singleton_append]
  | lost first =>
    obtain ⟨more, rfl, -⟩ := first.eq_of_discreet discreet
    exact ⟨more, rfl, nofun⟩

end Jobs

/-! ### The verdict -/

/-- What is answered when the files of a new job are asked for. -/
def Site.answers (s : Site) (job : Job) : List (Except Failure FileStatus) :=
  ((s.enrol job).askEach job.requestId job.retrievable).1

/-- The site where the files of a new job before some place have been asked for. -/
def Site.askedBefore (s : Site) (job : Job) (i : Nat) : Site :=
  ((s.enrol job).askEach job.requestId (job.retrievable.take i)).2

/-- **What thwarts a new job**: a catalogue cannot be packaged; or else a file is denied; or else, when all files
are there, the job would expire after the end of the calendar. -/
inductive Site.Thwarts (s : Site) (job : Job) : Prop
  | catalogue (e : ManifestEntry) (listed : e ∈ job.catalogues) (lost : s.packages e.fileId = false)
  | file (packaged : ∀ e ∈ job.catalogues, s.packages e.fileId = true)
      (denied : ∃ a ∈ s.answers job, denies a = true)
  | expiry (packaged : ∀ e ∈ job.catalogues, s.packages e.fileId = true)
      (there : ∀ a ∈ s.answers job, a = .ok .available)
      (overflows : s.clock.now.addMillis? (s.settings.ttlMs job.mode) = none)

/-- **The verdict on a new job**: the job as it is stored when it has been created. -/
structure Site.Verdict (s : Site) (job j : Job) (s' : Site) : Prop where
  stored : s'.inventory.jobs.get? job.requestId = some j
  /-- It ends in an error if something thwarts it. -/
  error : j.status = .error ↔ s.Thwarts job
  /-- It is ready if nothing thwarts it and no file is still to come. -/
  ready : j.status = .ready ↔ ¬s.Thwarts job ∧ .ok .pending ∉ s.answers job
  /-- Otherwise it is being prepared. -/
  preparing : j.status ≠ .error → j.status ≠ .ready → j.status = .preparing
  /-- Unless it ends in an error each of its files is provided for it. -/
  provided : j.status ≠ .error → ∀ e ∈ job.retrievable, s'.Provides job.requestId e.fileId
  /-- Nothing is left of the request for an unknown file for which there is no room, whether it was unknown from
  the beginning or when it was asked for. -/
  clean : (∀ e ∈ job.catalogues, s.packages e.fileId = true) →
    ∀ (i : Nat) (e : ManifestEntry) (kb : UInt64) (room : Int), job.retrievable[i]? = some e →
      (s.answers job)[i]? = some (.error (.capacityExceeded kb room)) →
      (s.inventory.files.get? e.fileId = none ∨
        (s.askedBefore job i).inventory.files.get? e.fileId = none) →
      s'.Clean job.requestId e.fileId

theorem Site.Clean.failJob (h : s.Clean r id) (message : String) (j : Job) :
    (s.failJob message j).Clean r id := ⟨h.absent, h.free, h.grounded, h.unreferred⟩

theorem Site.thwarts_iff_of_there {job : Job} (packaged : ∀ e ∈ job.catalogues, s.packages e.fileId = true)
    (there : ∀ a ∈ s.answers job, a = .ok .available) :
    s.Thwarts job ↔ s.clock.now.addMillis? (s.settings.ttlMs job.mode) = none := by
  refine ⟨fun hthwarts => ?_, .expiry packaged there⟩
  cases hthwarts with
  | catalogue e listed lost => exact absurd (packaged e listed) (by rw [lost]; decide)
  | file _ denied =>
    obtain ⟨a, ha, hdenied⟩ := denied
    rw [there a ha] at hdenied
    cases hdenied
  | expiry _ _ overflows => exact overflows

theorem Site.not_thwarts_of_pending {job : Job} (packaged : ∀ e ∈ job.catalogues, s.packages e.fileId = true)
    (sound : ∀ a ∈ s.answers job, denies a = false) (pending : .ok .pending ∈ s.answers job) :
    ¬s.Thwarts job := by
  intro hthwarts
  cases hthwarts with
  | catalogue e listed lost => exact absurd (packaged e listed) (by rw [lost]; decide)
  | file _ denied =>
    obtain ⟨a, ha, hdenied⟩ := denied
    rw [sound a ha] at hdenied
    cases hdenied
  | expiry _ there => cases there _ pending

namespace Site.Verdict

variable {job j : Job} {t : Site}

/-- A job that ends in an error, before its files are asked for or after. -/
theorem of_thwarted (h : s.Quiet) (hn : s.inventory.Named) (thwarts : s.Thwarts job)
    (asked : (∀ e ∈ job.catalogues, s.packages e.fileId = true) →
      t = ((s.enrol job).askEach job.requestId job.retrievable).2) (message : String) :
    s.Verdict job (job.failedAt message t.clock.now) (t.failJob message job) := by
  have hquiet : (s.enrol job).Quiet := h.of_same rfl rfl rfl
  have hnamed : (s.enrol job).inventory.Named := hn.saveJob job
  refine ⟨Inventory.get?_saveJob_self .., ⟨fun _ => thwarts, fun _ => rfl⟩,
    ⟨nofun, fun hready => absurd thwarts hready.1⟩, fun herror => absurd rfl herror,
    fun herror => absurd rfl herror, fun packaged i e kb room hentry hrefused habsent => ?_⟩
  have hclean := clean_askEach hquiet hnamed (Jobs.not_catalogue_of_retrievable job) hentry hrefused habsent
  rw [← asked packaged] at hclean
  exact hclean.failJob message job

/-- A job none of whose files is denied. -/
theorem of_sound (h : s.Quiet) (hn : s.inventory.Named) (preparing : job.status = .preparing)
    (sound : ∀ a ∈ s.answers job, denies a = false)
    (stored : s'.inventory.jobs.get? job.requestId = some j)
    (provides : ∀ id, ((s.enrol job).askEach job.requestId job.retrievable).2.Provides job.requestId id →
      s'.Provides job.requestId id)
    (error : j.status = .error ↔ s.Thwarts job)
    (ready : j.status = .ready ↔ ¬s.Thwarts job ∧ .ok .pending ∉ s.answers job)
    (otherwise : j.status = .error ∨ j.status = .ready ∨ j.status = .preparing) : s.Verdict job j s' := by
  have hquiet : (s.enrol job).Quiet := h.of_same rfl rfl rfl
  have hnamed : (s.enrol job).inventory.Named := hn.saveJob job
  have hlive : (s.enrol job).inventory.Lives job.requestId :=
    ⟨job, Inventory.get?_saveJob_self .., by rw [preparing]; rfl⟩
  have hprovided := provides_askEach hquiet hnamed hlive (Jobs.not_catalogue_of_retrievable job) sound
  refine ⟨stored, error, ready, fun herror hready => (otherwise.resolve_left herror).resolve_left hready,
    fun _ e he => provides _ (hprovided e he), fun _ i e kb room _ hrefused _ => ?_⟩
  cases sound _ (List.mem_of_getElem? hrefused)

end Site.Verdict

/-- **What is answered for the files of a new job** is so, where the files before each have been asked for. -/
theorem Site.answers_iff (h : s.Quiet) (hn : s.inventory.Named) {job : Job} {i : Nat}
    {answer : Except Failure FileStatus} (entry : job.retrievable[i]? = some e)
    (answered : (s.answers job)[i]? = some answer) :
    let t := s.askedBefore job i
    (answer = .ok .available ↔ t.inFlight.contains e.fileId = false ∧
      ∃ f, t.inventory.files.get? e.fileId = some f ∧ f.IsThere) ∧
    (denies answer = true ↔
      (t.inFlight.contains e.fileId = false ∧
        ∃ f, t.inventory.files.get? e.fileId = some f ∧ f.failed = true) ∨
      ∃ kb room, answer = .error (.capacityExceeded kb room)) := by
  have hquiet : (s.enrol job).Quiet := h.of_same rfl rfl rfl
  have hnamed : (s.enrol job).inventory.Named := hn.saveJob job
  have hkind := Jobs.not_catalogue_of_retrievable job
  obtain ⟨ht, htn, -⟩ := upholds_askEach hquiet hnamed
    (fun e he => hkind e (List.mem_of_mem_take (i := i) he)) job.requestId
  have hreply := reply_ensure ht htn job.requestId (hkind e (List.mem_of_getElem? entry))
  rw [(askEach_at entry answered).1] at hreply
  exact ⟨hreply.available_iff, hreply.denies_iff⟩

namespace Jobs

/-- What becomes of a new job when its catalogues have been packaged. -/
theorem leads_goOn_verdict (h : s.Quiet) (hn : s.inventory.Named) {job : Job}
    (preparing : job.status = .preparing) (packaged : ∀ e ∈ job.catalogues, s.packages e.fileId = true) :
    Leads (do
        match ← assess job false with
        | .ready => promote job.requestId
        | .failed message => fail job.requestId message
        | .waiting => find job.requestId)
      (fun _ _ => False) (fun j s' => s.Verdict job j s') (s.enrol job) := by
  have hquiet : (s.enrol job).Quiet := h.of_same rfl rfl rfl
  have hnamed : (s.enrol job).inventory.Named := hn.saveJob job
  have hretrievable := not_catalogue_of_retrievable job
  obtain ⟨hasked, haskedNamed, hupheld⟩ := Site.upholds_askEach hquiet hnamed hretrievable job.requestId
  have hkept : ((s.enrol job).askEach job.requestId job.retrievable).2.inventory.jobs.get? job.requestId =
      some job := by
    rw [hupheld.jobs]
    exact Inventory.get?_saveJob_self ..
  simp only [assess, leads_bind]
  refine (leads_assessEntries_askEach job.requestId false job.retrievable false hquiet hnamed
    hretrievable).mono (fun _ _ hfalse => hfalse) ?_
  rintro result _ ⟨rfl, hjudged⟩
  cases result with
  | ready =>
    have hthere : ∀ a ∈ s.answers job, a = .ok .available := hjudged.2
    have hthwarts := Site.thwarts_iff_of_there packaged hthere
    have hnone : .ok .pending ∉ s.answers job := fun hpending => by cases hthere _ hpending
    refine ((leads_promote_of_quiet hasked haskedNamed job.requestId).and
      (leads_promote_status hasked haskedNamed hkept preparing)).mono (fun _ _ hfailed => hfailed.2) ?_
    rintro j s' ⟨hconcludes, hstatus⟩
    rw [hupheld.clock, hupheld.settings] at hstatus
    change j.status = if (s.clock.now.addMillis? (s.settings.ttlMs job.mode)).isSome then .ready else .error
      at hstatus
    refine .of_sound h hn preparing (fun a ha => by rw [hthere a ha]; rfl) hconcludes.stored
      (fun _ => hconcludes.provides) ?_ ?_ ?_
    all_goals cases hexpiry : s.clock.now.addMillis? (s.settings.ttlMs job.mode) <;>
      simp [hstatus, hthwarts, hexpiry, hnone]
  | failed message =>
    rw [leads_fail_iff hasked hkept preparing]
    exact .of_thwarted h hn (.file packaged hjudged) (fun _ => rfl) message
  | waiting =>
    obtain ⟨hsound, hwaiting⟩ := hjudged
    have hpending : .ok .pending ∈ s.answers job := hwaiting.resolve_left Bool.false_ne_true
    have hnot := Site.not_thwarts_of_pending packaged hsound hpending
    rw [leads_find_of_quiet hasked hkept]
    refine .of_sound h hn preparing hsound hkept (fun _ => id) ?_ ?_ (.inr (.inr preparing))
    all_goals simp [preparing, hnot, hpending]

/-- There is no second job of the same name. -/
theorem run_create_of_known (h : s.Quiet) {j : Job} (known : s.inventory.jobs.get? r = some j)
    (mode : DownloadMode) (manifest : List ManifestEntry) :
    (create r mode manifest).answer s = .error (.jobAlreadyExists r.text) ∧
      (create r mode manifest).after s = s := by
  have hleads := leads_answer (create r mode manifest) s
  rw [create, leads_bind, leads_now, leads_bind, Records.leads_loadJob_of_quiet h, known] at hleads
  simp only [Option.isSome_some, if_true, leads_bind, leads_throw] at hleads
  exact ⟨hleads.1, hleads.2.symm⟩

/-- **What becomes of a new job** where no call is refused. -/
theorem leads_create_verdict (h : s.Quiet) (hn : s.inventory.Named) (discreet : s.Discreet)
    (unknown : s.inventory.jobs.get? r = none) (mode : DownloadMode) (manifest : List ManifestEntry) :
    Leads (create r mode manifest) (fun _ _ => False)
      (fun j s' => s.Verdict (Job.create r mode manifest s.clock.now) j s') s := by
  simp only [create, leads_bind, leads_now]
  rw [Records.leads_loadJob_of_quiet h, unknown]
  generalize hjob : Job.create r mode manifest s.clock.now = job
  have hpreparing : job.status = .preparing := by rw [← hjob]; rfl
  obtain rfl : job.requestId = r := by rw [← hjob]; rfl
  simp only [Option.isSome_none, Bool.false_eq_true, if_false, leads_bind]
  rw [Records.leads_saveJob_of_quiet h]
  have hsaved : ({ s with inventory := s.inventory.saveJob job } : Site).Secluded :=
    h.toSecluded.of_same rfl rfl rfl
  refine (leads_packageAll job.requestId job.catalogues hsaved).mono (fun _ _ hfalse => hfalse) ?_
  intro lost s₁ hpacked
  have hlost : _ ↔ ∀ e ∈ job.catalogues, s.packages e.fileId = true := hpacked.lost_eq_none_iff
  obtain ⟨more, rfl, hmore⟩ := hpacked.eq_of_discreet discreet
  cases lost with
  | some loss =>
    have hnot : ¬∀ e ∈ job.catalogues, s.packages e.fileId = true := fun hall => by cases hlost.2 hall
    obtain ⟨e, he, hfails⟩ : ∃ e ∈ job.catalogues, s.packages e.fileId = false := by simpa using hnot
    have hpacked : ({ s with
      inventory := s.inventory.saveJob job, log := s.log ++ more } : Site).Quiet := h.of_same rfl rfl rfl
    dsimp only
    rw [leads_fail_iff hpacked (Inventory.get?_saveJob_self ..) hpreparing]
    exact .of_thwarted h hn (.catalogue e he hfails) (fun hall => absurd hall hnot) _
  | none =>
    obtain rfl := hmore rfl
    exact leads_goOn_verdict h hn hpreparing (hlost.1 rfl)

end Jobs

/-- **New jobs are judged as they deserve.** However records, room and transfers stand, and whatever the manifest:
where no call is refused and the packager leaves jobs alone, a request whose job exists already is told so, and
nothing changes. Otherwise the answer is the job as it is stored then, and

* it ends in an error if a catalogue cannot be packaged; or else if a file is denied; or else if all files are
  available but it would expire after the end of the calendar;
* it is ready if nothing of the kind happens and no file is still to come; otherwise it is being prepared, and
  refers to each of its files, which is there or in flight;
* an unknown file for which there is no room is left without a record, a reservation and a transfer, and the job
  does not refer to it.

Where a file is asked for, it is available if it is there and not in flight, and denied if its record has failed
and it is not in flight, or if there is no room for it. -/
theorem new_jobs_are_judged (h : s.Secluded) (faultless : s.Faultless) (hn : s.inventory.Named)
    (discreet : s.Discreet) (r : RequestId) (mode : DownloadMode) (manifest : List ManifestEntry) :
    let job := Job.create r mode manifest s.clock.now
    let creation := Jobs.create r mode manifest
    (s.inventory.jobs.contains r = true →
      creation.answer s = .error (.jobAlreadyExists r.text) ∧ creation.after s = s) ∧
    (s.inventory.jobs.contains r = false →
      ∃ j, creation.answer s = .ok j ∧ s.Verdict job j (creation.after s)) ∧
    ∀ (i : Nat) (e : ManifestEntry) (answer : Except Failure FileStatus),
      job.retrievable[i]? = some e → (s.answers job)[i]? = some answer →
      let t := s.askedBefore job i
      (answer = .ok .available ↔ t.inFlight.contains e.fileId = false ∧
        ∃ f, t.inventory.files.get? e.fileId = some f ∧ f.IsThere) ∧
      (denies answer = true ↔
        (t.inFlight.contains e.fileId = false ∧
          ∃ f, t.inventory.files.get? e.fileId = some f ∧ f.failed = true) ∨
        ∃ kb room, answer = .error (.capacityExceeded kb room)) := by
  have hquiet : s.Quiet := ⟨h, faultless⟩
  refine ⟨fun hknown => ?_, fun hunknown => ?_, fun i e answer => Site.answers_iff hquiet hn⟩
  · obtain ⟨j, hj⟩ := Table.contains_eq_true.1 hknown
    exact Jobs.run_create_of_known hquiet hj mode manifest
  · exact (Jobs.leads_create_verdict hquiet hn discreet (Table.contains_eq_false.1 hunknown) mode
      manifest).exists_ok

/-- A depot with a limit of 100 KB, a second into 1970, with one job; its packager can package every catalogue. -/
def receptionSite : Site :=
  { Site.blank { cacheRoot := "cache", limitKb := 100 } with
    clock := { hand := 1000 }
    packager := some {}
    inventory := Inventory.fresh.saveJob (.create ⟨"j"⟩ .web [] .epoch) }

/-- A manifest with a catalogue and a file of so many kilobytes. -/
def receptionManifest (kb : UInt64) : List ManifestEntry :=
  [⟨⟨"c"⟩, .catalogue, none, none⟩, ⟨⟨"f"⟩, .spectrum, none, some kb⟩]

/-- There is no second job of the same name; a job without files is ready; one with a file of 60 KB is being
prepared, and the file is provided for it; and one with a file of 500 KB ends in an error and leaves nothing. -/
theorem judgements_at_receptionSite :
    (Jobs.create ⟨"j"⟩ .web []).answer receptionSite = .error (.jobAlreadyExists "j") ∧
    (∃ j, (Jobs.create ⟨"k"⟩ .web []).answer receptionSite = .ok j ∧ j.status = .ready) ∧
    (∃ j, (Jobs.create ⟨"k"⟩ .web (receptionManifest 60)).answer receptionSite = .ok j ∧
      j.status = .preparing ∧
      ((Jobs.create ⟨"k"⟩ .web (receptionManifest 60)).after receptionSite).Provides ⟨"k"⟩ ⟨"f"⟩) ∧
    ∃ j, (Jobs.create ⟨"k"⟩ .web (receptionManifest 500)).answer receptionSite = .ok j ∧
      j.status = .error ∧
      ((Jobs.create ⟨"k"⟩ .web (receptionManifest 500)).after receptionSite).Clean ⟨"k"⟩ ⟨"f"⟩ := by
  have hdiscreet : receptionSite.Discreet := by
    rintro status ⟨p, id, hp, hid⟩
    obtain rfl := Option.some.inj hp
    cases hid
  have hall := fun r => new_jobs_are_judged (s := receptionSite) ⟨rfl, rfl, rfl, rfl, rfl⟩ (fun _ => rfl)
    (Inventory.Named.fresh.saveJob _) hdiscreet r .web
  have hnew : receptionSite.inventory.jobs.contains ⟨"k"⟩ = false := by decide +kernel
  have hstatus : ∀ {manifest j status},
      (Jobs.create ⟨"k"⟩ .web manifest).answer receptionSite = .ok j →
      ((Jobs.create ⟨"k"⟩ .web manifest).answer receptionSite).toOption.map Job.status = some status →
      j.status = status := by
    intro manifest j status hj hmap
    rw [hj] at hmap
    exact Option.some.inj hmap
  obtain ⟨j₁, hj₁, -⟩ := (hall ⟨"k"⟩ []).2.1 hnew
  obtain ⟨j₂, hj₂, hverdict₂⟩ := (hall ⟨"k"⟩ (receptionManifest 60)).2.1 hnew
  obtain ⟨j₃, hj₃, hverdict₃⟩ := (hall ⟨"k"⟩ (receptionManifest 500)).2.1 hnew
  have hpreparing : j₂.status = .preparing := hstatus hj₂ (by decide +kernel)
  refine ⟨((hall ⟨"j"⟩ []).1 (by decide +kernel)).1, ⟨j₁, hj₁, hstatus hj₁ (by decide +kernel)⟩,
    ⟨j₂, hj₂, hpreparing, ?_⟩, j₃, hj₃, hstatus hj₃ (by decide +kernel), ?_⟩
  · exact hverdict₂.provided (by rw [hpreparing]; decide) ⟨⟨"f"⟩, .spectrum, none, some 60⟩ (by decide)
  · exact hverdict₃.clean (by decide) 0 ⟨⟨"f"⟩, .spectrum, none, some 500⟩ 500 100 rfl (by decide +kernel)
      (.inl (by decide +kernel))

end Depot
