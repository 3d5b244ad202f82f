import Depot.Proofs.Provision
import Depot.Proofs.Sending

/-!
# Where a call is refused while jobs expire

A sweep goes through two lists of jobs. Whatever fails while one job is brought forward, the others are
brought forward all the same. Not so where jobs expire: each job is read anew and written back, and the first
of these calls that is refused is the end of the sweep. The jobs before it have expired by then, and their
notices are delivered; those after it are not even looked at.

Which calls are refused is given in advance, so this can be said exactly: of the jobs whose time is over so
many expire as come before the first whose reading or writing is refused.

## Main statements

* `Records.leads_reach_spends` — a call is refused as the pattern says, and takes one occasion from it.
* `Jobs.leads_expireAll_upTo` — which jobs of a list expire, whatever calls are refused.
* `first_refusal_ends_expiry` — which jobs have expired after a sweep.
* `refused_job_holds_up_others` — a job that cannot be written leaves others unexpired.
-/

namespace Depot

open Act Time

variable {s s' : Site}

/-! ### Occasions -/

/-- Whether a fault strikes on the occasion that comes after so many others. -/
def FaultPattern.strikesAt : FaultPattern → Nat → Bool
  | [], _ => false
  | streak :: rest, k =>
    if k < streak.length then streak.strikes else strikesAt rest (k - streak.length)

theorem FaultPattern.fst_next : ∀ p : FaultPattern, p.next.1 = p.strikesAt 0
  | [] => rfl
  | ⟨0, _⟩ :: rest => fst_next rest
  | ⟨_ + 1, _⟩ :: _ => rfl

theorem FaultPattern.strikesAt_next : ∀ (p : FaultPattern) (k : Nat),
    p.next.2.strikesAt k = p.strikesAt (k + 1)
  | [], _ => rfl
  | ⟨0, _⟩ :: rest, k => strikesAt_next rest k
  | ⟨n + 1, b⟩ :: rest, k => by
    simp only [next, strikesAt, Nat.add_lt_add_iff_right, Nat.add_sub_add_right]

/-- Whether a call is refused that comes after so many others of its kind. -/
def Site.refuses (s : Site) (call : StoreCall) (k : Nat) : Bool :=
  (s.faults (.refuse call)).strikesAt k

/-- A depot after an occasion on which a fault strikes or does not. -/
def Site.spend (s : Site) (f : Fault) : Site :=
  { s with faults := fun g => if g = f then (s.faults f).next.2 else s.faults g }

theorem Site.stays_spend (s : Site) (f : Fault) : s.Stays (s.spend f) := by
  refine ⟨rfl, fun g hg => ?_⟩
  show (if g = f then _ else _) = _
  split
  · next heq => rw [← heq, hg]; rfl
  · exact hg

/-- **A call has been made**, and one occasion to refuse it has passed. -/
structure Site.Spends (s : Site) (call : StoreCall) (s' : Site) : Prop where
  stays : s.Stays s'
  spent : ∀ k, s'.refuses call k = s.refuses call (k + 1)
  others : ∀ other, other ≠ call → ∀ k, s'.refuses other k = s.refuses other k

theorem Site.spends_spend (s : Site) (call : StoreCall) : s.Spends call (s.spend (.refuse call)) := by
  refine ⟨s.stays_spend _, fun k => ?_, fun other hne k => ?_⟩
  · simp only [refuses, spend, if_pos, FaultPattern.strikesAt_next]
  · simp only [refuses, spend, Fault.refuse.injEq, if_neg hne]

namespace Records

/-- A fault strikes as its pattern says. -/
theorem leads_strikes_spend (f : Fault) {E : Failure → Site → Prop} {Q : Bool → Site → Prop} :
    Leads (strikes f) E Q s ↔ Q ((s.faults f).strikesAt 0) (s.spend f) := by
  simp only [strikes, leads_bind, leads_get]
  cases hp : s.faults f with
  | nil =>
    have hsame : s.spend f = s := by
      have hfaults : (s.spend f).faults = s.faults := by
        funext g
        show (if g = f then _ else _) = _
        split
        · next hg => rw [hg, hp]; rfl
        · rfl
      rw [(s.stays_spend f).eq, hfaults]
    dsimp only
    rw [leads_pure, hsame]
    rfl
  | cons streak rest =>
    simp only [leads_bind, leads_modify, leads_pure, FaultPattern.fst_next, Site.spend, hp]

/-- **A call is refused as its pattern says**, and nothing else happens. -/
theorem leads_reach_spends (call : StoreCall) (s : Site) :
    Leads (reach call) (fun _ s' => s.refuses call 0 = true ∧ s.Stays s')
      (fun _ s' => s.refuses call 0 = false ∧ s.Spends call s') s := by
  rw [reach, leads_bind, leads_strikes_spend]
  refine leads_ite.2 ⟨fun hrefused => ?_, fun hgoes => ?_⟩
  · rw [leads_throw]
    exact ⟨hrefused, s.stays_spend _⟩
  · rw [leads_pure]
    exact ⟨hgoes, s.spends_spend call⟩

theorem leads_loadJob_spends (h : s.Secluded) (r : RequestId) :
    Leads (loadJob r) (fun _ s' => s.refuses .loadJob 0 = true ∧ s.Stays s')
      (fun found s' => s.refuses .loadJob 0 = false ∧ found = s.inventory.jobs.get? r ∧
        s.Spends .loadJob s') s := by
  simp only [loadJob, leads_bind]
  refine (leads_reach_spends .loadJob s).mono (fun _ _ hr => hr) ?_
  rintro _ s₁ ⟨hgoes, hspends⟩
  rw [leads_strikes_of_quiet (h.aside hspends.stays.aside).jobs]
  simp only [Bool.false_eq_true, if_false, leads_bind, leads_get, leads_pure]
  exact ⟨hgoes, by rw [hspends.stays.eq], hspends⟩

theorem leads_saveJob_spends (h : s.Secluded) (j : Job) :
    Leads (saveJob j) (fun _ s' => s.refuses .saveJob 0 = true ∧ s.Stays s')
      (fun _ s' => s.refuses .saveJob 0 = false ∧
        ∃ t, s.Spends .saveJob t ∧ s' = { t with inventory := t.inventory.saveJob j }) s := by
  simp only [saveJob, leads_bind]
  refine (leads_reach_spends .saveJob s).mono (fun _ _ hr => hr) ?_
  rintro _ s₁ ⟨hgoes, hspends⟩
  rw [leads_change (h.aside hspends.stays.aside)]
  exact ⟨hgoes, s₁, hspends, rfl⟩

theorem leads_findByStatus_spends (status : JobStatus) (s : Site) :
    Leads (findByStatus status) (fun _ s' => s.refuses .findByStatus 0 = true ∧ s.Stays s')
      (fun l s' => s.refuses .findByStatus 0 = false ∧ l = s.inventory.jobsWithStatus status ∧
        s.Spends .findByStatus s') s := by
  simp only [findByStatus, leads_bind]
  refine (leads_reach_spends .findByStatus s).mono (fun _ _ hr => hr) ?_
  rintro _ s₁ ⟨hgoes, hspends⟩
  simp only [leads_get, leads_pure]
  exact ⟨hgoes, by rw [hspends.stays.eq], hspends⟩

end Records

/-! ### Jobs changed one after another -/

/-- A depot when a job has been changed and its news has been told. -/
def Site.amend (change : Job → Job) (news : Job → Notice) (s : Site) (j : Job) : Site :=
  { s with inventory := s.inventory.saveJob (change j), log := s.log ++ [.told (news j)] }

/-- A depot when that has been done with the jobs of a list, one after another. -/
def Site.amendEach (change : Job → Job) (news : Job → Notice) (s : Site) (l : List Job) : Site :=
  l.foldl (amend change news) s

section Amend

variable {change : Job → Job} {news : Job → Notice}

@[simp] theorem Site.amendEach_nil (s : Site) : s.amendEach change news [] = s := rfl

@[simp] theorem Site.amendEach_cons (s : Site) (j : Job) (l : List Job) :
    s.amendEach change news (j :: l) = (s.amend change news j).amendEach change news l := rfl

/-- Only jobs are changed, and the news of each is told in turn. -/
theorem Site.amendEach_eq (s : Site) (l : List Job) :
    s.amendEach change news l =
      { s with
        inventory := { s.inventory with jobs := (s.amendEach change news l).inventory.jobs }
        log := s.log ++ l.map fun j => .told (news j) } := by
  induction l generalizing s with
  | nil => rw [amendEach_nil, List.map_nil, List.append_nil]
  | cons j l ih =>
    rw [amendEach_cons, ih, List.map_cons, ← List.singleton_append, ← List.append_assoc]
    rfl

theorem Site.Quiet.amendEach (h : s.Quiet) (l : List Job) : (s.amendEach change news l).Quiet := by
  rw [Site.amendEach_eq]
  exact h.of_same rfl rfl rfl

theorem Inventory.Named.amendEach (hn : s.inventory.Named) (l : List Job) :
    (s.amendEach change news l).inventory.Named := by
  induction l generalizing s with
  | nil => exact hn
  | cons j l ih => exact ih (s := s.amend change news j) (hn.saveJob _)

variable (same : ∀ j, (change j).requestId = j.requestId)

include same

/-- A job that is not on the list stays as it is. -/
theorem Site.get?_amendEach_of_not_mem {l : List Job} {r : RequestId} (h : r ∉ l.map Job.requestId) :
    (s.amendEach change news l).inventory.jobs.get? r = s.inventory.jobs.get? r := by
  induction l generalizing s with
  | nil => rfl
  | cons j l ih =>
    rw [List.map_cons, List.mem_cons, not_or] at h
    rw [amendEach_cons, ih h.2]
    exact Inventory.get?_saveJob_of_ne _ (same j ▸ h.1)

/-- A job that is on the list once is changed. -/
theorem Site.get?_amendEach_of_mem {l : List Job} (nodup : (l.map Job.requestId).Nodup) {j : Job}
    (h : j ∈ l) :
    (s.amendEach change news l).inventory.jobs.get? j.requestId = some (change j) := by
  induction l generalizing s with
  | nil => cases h
  | cons k l ih =>
    rw [List.map_cons, List.nodup_cons] at nodup
    rw [amendEach_cons]
    rcases List.mem_cons.1 h with rfl | h
    · rw [get?_amendEach_of_not_mem same nodup.1, ← same j]
      exact Inventory.get?_saveJob_self s.inventory (change j)
    · exact ih nodup.2 h

/-- **Jobs that are listed as they are kept are changed**, and no others. -/
theorem Site.get?_amendEach (hn : s.inventory.Named) {l : List Job} (hl : s.ListsJobs l) (r : RequestId) :
    (s.amendEach change news l).inventory.jobs.get? r =
      (s.inventory.jobs.get? r).map fun j => if j ∈ l then change j else j := by
  by_cases hr : r ∈ l.map Job.requestId
  · obtain ⟨j, hj, rfl⟩ := List.mem_map.1 hr
    rw [get?_amendEach_of_mem same hl.nodup hj, hl.kept j hj, Option.map_some, if_pos hj]
  · rw [get?_amendEach_of_not_mem same hr]
    cases hkept : s.inventory.jobs.get? r with
    | none => rfl
    | some j =>
      have hnot : j ∉ l := fun hj => hr (hn.jobs r j hkept ▸ List.mem_map_of_mem hj)
      rw [Option.map_some, if_neg hnot]

end Amend

/-! ### Expired jobs -/

/-- A job whose time is over, as it is written. -/
def Job.expiredAt (j : Job) (time : Instant) : Job := { j with status := .expired, modifiedAt := time }

theorem Job.requestId_expiredAt (j : Job) (time : Instant) : (j.expiredAt time).requestId = j.requestId := rfl

/-- The jobs of a list whose time is over. -/
def overdue (time : Instant) (l : List Job) : List Job := l.filter fun j => j.isExpiredAt time

theorem overdue_cons_of_over {time : Instant} {j : Job} (h : j.isExpiredAt time = true) (l : List Job) :
    overdue time (j :: l) = j :: overdue time l := List.filter_cons_of_pos h

theorem overdue_cons_of_lasting {time : Instant} {j : Job} (h : j.isExpiredAt time = false) (l : List Job) :
    overdue time (j :: l) = overdue time l := List.filter_cons_of_neg (by simpa using h)

/-- A depot when a job has expired. -/
def Site.expire (s : Site) (j : Job) : Site :=
  { s with
    inventory := s.inventory.saveJob (j.expiredAt s.clock.now)
    log := s.log ++ [.told (.expired j.requestId)] }

/-- A depot when the jobs of a list have expired. -/
def Site.expireEach (s : Site) (l : List Job) : Site := l.foldl Site.expire s

@[simp] theorem Site.expireEach_nil (s : Site) : s.expireEach [] = s := rfl

@[simp] theorem Site.expireEach_cons (s : Site) (j : Job) (l : List Job) :
    s.expireEach (j :: l) = (s.expire j).expireEach l := rfl

theorem Site.unhindered_expireEach (s : Site) (l : List Job) :
    (s.expireEach l).unhindered = s.unhindered.expireEach l := by
  induction l generalizing s with
  | nil => rfl
  | cons j l ih => exact ih (s.expire j)

/-- That jobs expire is a change of theirs. -/
theorem Site.expireEach_eq_amendEach (s : Site) (l : List Job) :
    s.expireEach l =
      s.amendEach (fun j => j.expiredAt s.clock.now) (fun j => .expired j.requestId) l := by
  induction l generalizing s with
  | nil => rw [expireEach_nil, amendEach_nil]
  | cons j l ih =>
    have hclock : (s.expire j).clock = s.clock := rfl
    rw [expireEach_cons, ih, hclock]
    rfl

@[simp] theorem Site.log_expireEach (s : Site) (l : List Job) :
    (s.expireEach l).log = s.log ++ l.map fun j => .told (.expired j.requestId) := by
  rw [expireEach_eq_amendEach, amendEach_eq]

/-- A job that is not on the list stays as it is. -/
theorem Site.get?_expireEach_of_not_mem {s : Site} {l : List Job} {r : RequestId}
    (h : r ∉ l.map Job.requestId) :
    (s.expireEach l).inventory.jobs.get? r = s.inventory.jobs.get? r := by
  rw [expireEach_eq_amendEach]
  exact get?_amendEach_of_not_mem (fun j => j.requestId_expiredAt _) h

/-- A job that is on the list once has expired. -/
theorem Site.get?_expireEach_of_mem {s : Site} {l : List Job} (nodup : (l.map Job.requestId).Nodup)
    {j : Job} (h : j ∈ l) :
    (s.expireEach l).inventory.jobs.get? j.requestId = some (j.expiredAt s.clock.now) := by
  rw [expireEach_eq_amendEach]
  exact get?_amendEach_of_mem (fun j => j.requestId_expiredAt _) nodup h

/-! ### The first refusal -/

/-- Whether the expiry of the job that comes after so many others is refused: it cannot be read, or it cannot
be written. -/
def Site.balks (s : Site) (k : Nat) : Bool := s.refuses .loadJob k || s.refuses .saveJob k

/-- The first place at which something holds, or the end if that comes first. -/
abbrev IsFirst (p : Nat → Bool) (stop n : Nat) : Prop := IsLeast {k | stop ≤ k ∨ p k = true} n

theorem IsFirst.eq_zero {p : Nat → Bool} {stop n : Nat} (h : IsFirst p stop n) (first : p 0 = true) : n = 0 :=
  Nat.le_zero.1 (h.2 (.inr first))

theorem IsFirst.le {p : Nat → Bool} {stop n : Nat} (h : IsFirst p stop n) : n ≤ stop := h.2 (.inl (le_refl _))

theorem IsFirst.exists (p : Nat → Bool) (stop : Nat) : ∃ n, IsFirst p stop n := by
  have hstop : ∃ k, stop ≤ k ∨ p k = true := ⟨stop, .inl (le_refl _)⟩
  exact ⟨Nat.find hstop, Nat.find_spec hstop, fun k hk => Nat.find_min' hstop hk⟩

/-- What holds first, but not at the beginning, holds first from the next place on. -/
theorem IsFirst.exists_succ {p : Nat → Bool} {stop n : Nat} (h : IsFirst p (stop + 1) n)
    (first : p 0 = false) : ∃ m, n = m + 1 ∧ IsFirst (fun k => p (k + 1)) stop m := by
  obtain ⟨hn, hleast⟩ := h
  cases n with
  | zero =>
    rcases hn with hstop | hp
    · cases hstop
    · rw [first] at hp; cases hp
  | succ m =>
    refine ⟨m, rfl, hn.imp Nat.le_of_succ_le_succ id, fun k hk => ?_⟩
    exact Nat.le_of_succ_le_succ (hleast (hk.imp Nat.succ_le_succ id))

namespace Jobs

/-- **One job expires**, unless a call is refused; then it stays as it is. -/
theorem leads_expire_spends (h : s.Secluded) {j : Job} (kept : s.inventory.jobs.get? j.requestId = some j)
    (ready : j.status = .ready) (time : Instant) :
    Leads
      (apply j.requestId fun job => do
        if job.status ≠ .ready then return none
        return some (← move job .expired time))
      (fun _ s' => s.balks 0 = true ∧ s.Stays s')
      (fun expired s' => s.balks 0 = false ∧ expired = some (j.expiredAt time) ∧
        ∃ t, s.Stays t ∧ (∀ k, t.balks k = s.balks (k + 1)) ∧
          s' = { t with inventory := t.inventory.saveJob (j.expiredAt time) }) s := by
  simp only [apply, find, leads_bind]
  refine (Records.leads_loadJob_spends h j.requestId).mono ?_ ?_
  · rintro _ s₁ ⟨hrefused, hstays⟩
    exact ⟨by rw [Site.balks, hrefused, Bool.true_or], hstays⟩
  rintro found s₁ ⟨hgoes, hfound, hread⟩
  obtain rfl : found = some j := hfound.trans kept
  have hsave : ∀ k, s₁.refuses .saveJob k = s.refuses .saveJob k := hread.others .saveJob (by decide)
  rw [leads_pure, if_neg (by simpa using ready)]
  simp only [leads_bind, leads_pure]
  refine leads_move.2 ⟨fun _ => ?_, fun hnot => by rw [ready] at hnot; cases hnot⟩
  refine (Records.leads_saveJob_spends (h.aside hread.stays.aside) _).mono ?_ ?_
  · rintro _ s₂ ⟨hrefused, hstays⟩
    rw [hsave] at hrefused
    exact ⟨by rw [Site.balks, hrefused, Bool.or_true], hread.stays.trans hstays⟩
  · rintro _ s₂ ⟨hwritten, t, hwrite, rfl⟩
    rw [hsave] at hwritten
    refine ⟨by rw [Site.balks, hgoes, hwritten, Bool.or_false], rfl, t, hread.stays.trans hwrite.stays,
      fun k => ?_, rfl⟩
    rw [Site.balks, Site.balks, hwrite.others .loadJob (by decide), hread.spent, hwrite.spent, hsave]

/-- **Jobs of a list expire up to the first refusal**: those whose time is over, in their order. Where no call
is refused that would be made, all of them have expired. -/
theorem leads_expireAll_upTo (time : Instant) : ∀ (l : List Job) (p : Report) {s : Site} {n : Nat},
    s.Secluded → s.clock.now = time → s.ListsJobs l → (∀ j ∈ l, j.status = .ready) →
      IsFirst s.balks (overdue time l).length n →
      Leads (expireAll time l p)
        (fun _ s' => n < (overdue time l).length ∧
          s'.unhindered = (s.expireEach ((overdue time l).take n)).unhindered)
        (fun q s' => n = (overdue time l).length ∧
          q = { p with expired := p.expired ++ (overdue time l).map Job.requestId } ∧
          s'.unhindered = (s.expireEach ((overdue time l).take n)).unhindered) s
  | [], p, s, n, h, ht, hl, hready, hn => by
    obtain rfl : n = 0 := Nat.le_zero.1 hn.le
    rw [expireAll, leads_pure]
    exact ⟨rfl, by rw [overdue, List.filter_nil, List.map_nil, List.append_nil], rfl⟩
  | j :: rest, p, s, n, h, ht, hl, hready, hn => by
    have hrest : ∀ k ∈ rest, k.status = .ready := fun k hk => hready k (.tail _ hk)
    rw [expireAll]
    refine leads_ite.2 ⟨fun hlasts => ?_, fun hover => ?_⟩
    · rw [overdue_cons_of_lasting (by simpa using hlasts)] at hn ⊢
      exact leads_expireAll_upTo time rest p h ht hl.tail hrest hn
    rw [overdue_cons_of_over (by simpa using hover)] at hn ⊢
    rw [leads_bind]
    refine (leads_expire_spends h (hl.kept j (.head _)) (hready j (.head _)) time).mono ?_ ?_
    · rintro _ s₁ ⟨hbalks, hstays⟩
      obtain rfl := hn.eq_zero hbalks
      exact ⟨Nat.succ_pos _, hstays.same⟩
    rintro _ _ ⟨hgoes, rfl, t, hstays, hshift, rfl⟩
    obtain ⟨m, rfl, hm⟩ := hn.exists_succ hgoes
    have hsaved : ({ t with inventory := t.inventory.saveJob (j.expiredAt time) } : Site).Secluded :=
      (h.aside hstays.aside).of_same rfl rfl rfl
    dsimp only
    rw [leads_bind, leads_tell hsaved]
    dsimp only
    generalize hs₂ : ({ t with
      inventory := t.inventory.saveJob (j.expiredAt time)
      log := t.log ++ [.told (.expired (j.expiredAt time).requestId)] } : Site) = s₂
    -- But for the faults, this is where one job has expired.
    have hsame : s₂.unhindered = (s.expire j).unhindered := by
      rw [← hs₂, hstays.eq, Site.expire, ht]
      rfl
    have hexpires : ∀ l, (s₂.expireEach l).unhindered = (s.expireEach (j :: l)).unhindered := by
      intro l
      rw [Site.unhindered_expireEach, hsame, ← Site.unhindered_expireEach, ← Site.expireEach_cons]
    have hsecluded : s₂.Secluded := by
      rw [← hs₂]
      exact hsaved.of_same rfl rfl rfl
    have hclock : s₂.clock.now = time := by rw [← hs₂, hstays.eq, ← ht]
    have hlists : s₂.ListsJobs rest := by
      refine hl.saveJob ?_ (show (j.expiredAt time).requestId = j.requestId from rfl)
      rw [← hs₂, hstays.eq]
    have hfirst : IsFirst s₂.balks (overdue time rest).length m := by
      have hbalks : ∀ k, s₂.balks k = s.balks (k + 1) := fun k => by rw [← hshift k, ← hs₂]; rfl
      rwa [funext hbalks]
    refine (leads_expireAll_upTo time rest _ hsecluded hclock hlists hrest hfirst).mono ?_ ?_
    · rintro _ s' ⟨hlt, hs'⟩
      exact ⟨Nat.succ_lt_succ hlt, hs'.trans (hexpires _)⟩
    · rintro _ s' ⟨hall, rfl, hs'⟩
      refine ⟨congrArg (· + 1) hall, ?_, hs'.trans (hexpires _)⟩
      simp only [List.map_cons, List.append_assoc, List.singleton_append]
      rfl

/-- The first part of a sweep: every job that is being prepared is brought forward. -/
def advancePreparing : Act Report := do
  advanceAll (← Records.findByStatus .preparing) {}

/-- A sweep lets jobs expire after its first part. -/
theorem leads_poll_iff {E : Failure → Site → Prop} {Q : Report → Site → Prop} :
    Leads poll E Q s ↔
      Leads advancePreparing E
        (fun p s₁ => Leads (Records.findByStatus .ready) E
          (fun l => Leads (expireAll s₁.clock.now l p) E Q) s₁) s := by
  simp only [poll, advancePreparing, leads_bind, leads_now]

/-- The first part of a sweep keeps order, whatever calls are refused. -/
theorem keepsOrder_advancePreparing (s : Site) : s.KeepsOrder (advancePreparing.after s) := by
  have hwithin : advancePreparing.Within Sending s :=
    .bind (Records.idles_findByStatus _ s).sendings fun l s₁ _ => sendings_advanceAll l {} s₁
  have hsendings : Sendings s (advancePreparing.after s) := Leads.after hwithin
  exact hsendings.queues.order

end Jobs

/-! ### Sweeps -/

theorem Job.isExpiredAt_eq_true {j : Job} {time : Instant} :
    j.isExpiredAt time = true ↔ ∃ e, j.expiresAt = some e ∧ e ≤ time := by
  unfold Job.isExpiredAt
  cases j.expiresAt <;> simp

instance : Std.TransCmp Inventory.creationOrder :=
  inferInstanceAs (Std.TransCmp (compareLex (compareOn Job.createdAt) (compareOn Job.requestId)))

/-- The ready jobs whose time is over, in the order in which they expire. -/
def Site.dueJobs (s : Site) : List Job := overdue s.clock.now (s.inventory.jobsWithStatus .ready)

theorem Site.mem_dueJobs (hn : s.inventory.Named) {j : Job} :
    j ∈ s.dueJobs ↔ s.inventory.jobs.get? j.requestId = some j ∧ j.status = .ready ∧
      ∃ e, j.expiresAt = some e ∧ e ≤ s.clock.now := by
  rw [dueJobs, overdue, List.mem_filter, hn.mem_jobsWithStatus, Job.isExpiredAt_eq_true, and_assoc]

theorem Site.nodup_dueJobs (hn : s.inventory.Named) : (s.dueJobs.map Job.requestId).Nodup :=
  (hn.listsJobs _ _).nodup.sublist (List.filter_sublist.map _)

theorem Site.pairwise_dueJobs (s : Site) :
    s.dueJobs.Pairwise fun i j => (Inventory.creationOrder i j).isLE = true :=
  (pairwise_sortBy _).sublist List.filter_sublist

/-- Of due jobs of which the first so many have expired, each is expired or as it was. -/
theorem Site.get?_expireEach_take {l : List Job} (nodup : (l.map Job.requestId).Nodup)
    (kept : ∀ j ∈ l, s.inventory.jobs.get? j.requestId = some j) (n : Nat) {i : Nat} {j : Job}
    (hj : l[i]? = some j) :
    (s.expireEach (l.take n)).inventory.jobs.get? j.requestId =
      some (if i < n then j.expiredAt s.clock.now else j) := by
  split
  · next hlt =>
    have hmem : j ∈ l.take n := List.mem_of_getElem? (by rw [List.getElem?_take_of_lt hlt, hj])
    exact get?_expireEach_of_mem (nodup.sublist ((List.take_sublist n l).map _)) hmem
  · next hge =>
    have hmem : j ∈ l.drop n := by
      refine List.mem_of_getElem? (i := i - n) ?_
      rw [List.getElem?_drop, Nat.add_sub_cancel' (Nat.le_of_not_lt hge), hj]
    rw [get?_expireEach_of_not_mem, kept j (List.mem_of_getElem? hj)]
    intro hbefore
    have hsplit := nodup
    rw [← List.take_append_drop n l, List.map_append, List.nodup_append] at hsplit
    exact hsplit.2.2 _ hbefore _ (List.mem_map_of_mem hmem) rfl

/-- **A sweep lets jobs expire up to the first refusal.** -/
theorem Jobs.leads_poll_upTo (h : s.Secluded) (hn : s.inventory.Named) {p : Report}
    (advanced : advancePreparing.answer s = .ok p)
    (listed : (advancePreparing.after s).refuses .findByStatus 0 = false) {n : Nat}
    (first : IsFirst (advancePreparing.after s).balks (advancePreparing.after s).dueJobs.length n) :
    Leads poll
      (fun _ s' => n < (advancePreparing.after s).dueJobs.length ∧ s'.unhindered =
        ((advancePreparing.after s).expireEach ((advancePreparing.after s).dueJobs.take n)).unhindered)
      (fun q s' => n = (advancePreparing.after s).dueJobs.length ∧
        q = { p with expired := p.expired ++ (advancePreparing.after s).dueJobs.map Job.requestId } ∧
        s'.unhindered =
          ((advancePreparing.after s).expireEach ((advancePreparing.after s).dueJobs.take n)).unhindered)
      s := by
  rw [leads_poll_iff]
  refine (leads_answer advancePreparing s).mono ?_ ?_
  · rintro e _ ⟨he, -⟩
    rw [advanced] at he
    cases he
  rintro _ s₁ ⟨hp, rfl⟩
  obtain rfl : p = _ := Except.ok.inj (advanced.symm.trans hp)
  have horder := keepsOrder_advancePreparing s
  generalize advancePreparing.after s = s₁ at *
  refine (Records.leads_findByStatus_spends .ready s₁).mono ?_ ?_
  · rintro _ _ ⟨hrefused, -⟩
    rw [listed] at hrefused
    cases hrefused
  rintro _ s₂ ⟨-, rfl, hspends⟩
  have heq := hspends.stays.eq
  have hbalks : s₂.balks = s₁.balks := funext fun k => by
    rw [Site.balks, Site.balks, hspends.others .loadJob (by decide), hspends.others .saveJob (by decide)]
  have hexpires : ∀ l, (s₂.expireEach l).unhindered = (s₁.expireEach l).unhindered := fun l => by
    rw [Site.unhindered_expireEach, hspends.stays.same, ← Site.unhindered_expireEach]
  have hlists : s₂.ListsJobs (s₁.inventory.jobsWithStatus .ready) :=
    ((horder.named hn).listsJobs _ _).aside hspends.stays.aside
  refine (leads_expireAll_upTo s₁.clock.now _ p ((horder.secluded h).aside hspends.stays.aside)
    (by rw [heq]) hlists (fun j hj => ((horder.named hn).mem_jobsWithStatus.1 hj).2)
    (by rw [hbalks]; exact first)).mono ?_ ?_
  · rintro _ s' ⟨hlt, hs'⟩
    exact ⟨hlt, hs'.trans (hexpires _)⟩
  · rintro q s' ⟨hall, hq, hs'⟩
    exact ⟨hall, hq, hs'.trans (hexpires _)⟩

/-- **The first refusal ends the expiry.** In every depot whose jobs are kept under their names, whatever calls
are refused: once a sweep has brought forward all that was being prepared, and has listed the jobs that are
ready, those expire whose time is over, one by one in the order of their creation. Let `n` be the place of the
first of them that cannot be read or cannot be written, or their number if there is none. Then exactly the
first `n` of them have expired when the sweep ends, and the notices of these are delivered; each of the others
is as it was, the one at place `n` and all that come after it. The sweep gives an answer exactly if `n` is their
number, and otherwise fails. -/
theorem first_refusal_ends_expiry (h : s.Secluded) (hn : s.inventory.Named) {p : Jobs.Report} {s₁ : Site}
    (advanced : Jobs.advancePreparing.answer s = .ok p) (begins : Jobs.advancePreparing.after s = s₁)
    (listed : s₁.refuses .findByStatus 0 = false) :
    (∀ j, j ∈ s₁.dueJobs ↔ s₁.inventory.jobs.get? j.requestId = some j ∧ j.status = .ready ∧
      ∃ e, j.expiresAt = some e ∧ e ≤ s₁.clock.now) ∧
    (s₁.dueJobs.Pairwise fun i j => (Inventory.creationOrder i j).isLE = true) ∧
    ∃ n, IsLeast {k | s₁.dueJobs.length ≤ k ∨ s₁.balks k = true} n ∧
      (∀ i j, s₁.dueJobs[i]? = some j →
        (Jobs.poll.after s).inventory.jobs.get? j.requestId =
          some (if i < n then { j with status := .expired, modifiedAt := s₁.clock.now } else j)) ∧
      (∀ r, (∀ j ∈ s₁.dueJobs, j.requestId ≠ r) →
        (Jobs.poll.after s).inventory.jobs.get? r = s₁.inventory.jobs.get? r) ∧
      (Jobs.poll.after s).log =
        s₁.log ++ (s₁.dueJobs.take n).map (fun j => .told (.expired j.requestId)) ∧
      (∀ q, Jobs.poll.answer s = .ok q ↔ n = s₁.dueJobs.length ∧
        q = { p with expired := p.expired ++ s₁.dueJobs.map Job.requestId }) := by
  subst begins
  have hn₁ := (Jobs.keepsOrder_advancePreparing s).named hn
  obtain ⟨n, hfirst⟩ := IsFirst.exists (Jobs.advancePreparing.after s).balks
    (Jobs.advancePreparing.after s).dueJobs.length
  have hpoll := Jobs.leads_poll_upTo h hn advanced listed hfirst
  generalize Jobs.advancePreparing.after s = s₁ at *
  have hafter : (Jobs.poll.after s).unhindered = (s₁.expireEach (s₁.dueJobs.take n)).unhindered :=
    Leads.after (hpoll.mono (fun _ _ hs' => hs'.2) fun _ _ hs' => hs'.2.2)
  have hinventory := congrArg Site.inventory hafter
  have hlog := congrArg Site.log hafter
  refine ⟨fun j => Site.mem_dueJobs hn₁, s₁.pairwise_dueJobs, n, hfirst, fun i j hj => ?_, fun r hr => ?_,
    hlog.trans (Site.log_expireEach ..), fun q => ⟨fun hq => ?_, ?_⟩⟩
  · rw [show (Jobs.poll.after s).inventory = _ from hinventory]
    exact Site.get?_expireEach_take (Site.nodup_dueJobs hn₁)
      (fun j hj => ((Site.mem_dueJobs hn₁).1 hj).1) n hj
  · rw [show (Jobs.poll.after s).inventory = _ from hinventory]
    refine Site.get?_expireEach_of_not_mem fun hmem => ?_
    obtain ⟨j, hj, hid⟩ := List.mem_map.1 hmem
    exact hr j (List.mem_of_mem_take hj) hid
  · obtain ⟨hall, hreport, -⟩ := hpoll.of_ok hq
    exact ⟨hall, hreport⟩
  · rintro ⟨hall, rfl⟩
    cases hanswer : Jobs.poll.answer s with
    | error e => exact absurd (hpoll.of_error hanswer).1 (by omega)
    | ok q => rw [(hpoll.of_ok hanswer).2.1]

/-- A ready job without files whose time is over. -/
def overdueJob (r : String) : Job :=
  { Job.create ⟨r⟩ .web [] .epoch with status := .ready, expiresAt := some .epoch }

/-- A depot with three such jobs, in which jobs may not be written on some occasions. -/
def overdueSite (writes : FaultPattern) : Site :=
  { Site.blank { cacheRoot := "cache" } with
    faults := fun f => if f = .refuse .saveJob then writes else []
    inventory :=
      ((Inventory.fresh.saveJob (overdueJob "a")).saveJob (overdueJob "b")).saveJob (overdueJob "c") }

/-- Where the second job cannot be written, the first has expired, and the third, too, is as it was. -/
theorem expiry_of_overdueSite :
    let s := overdueSite [⟨1, false⟩, ⟨1, true⟩]
    (Jobs.poll.after s).inventory.jobs.get? ⟨"a"⟩ = some ((overdueJob "a").expiredAt .epoch) ∧
      (Jobs.poll.after s).inventory.jobs.get? ⟨"b"⟩ = some (overdueJob "b") ∧
      (Jobs.poll.after s).inventory.jobs.get? ⟨"c"⟩ = some (overdueJob "c") ∧
      ∀ q, Jobs.poll.answer s ≠ .ok q := by
  intro s
  obtain ⟨p, hp⟩ : ∃ p, Jobs.advancePreparing.answer s = .ok p := ⟨{}, by cbv⟩
  obtain ⟨-, -, n, hfirst, hjobs, -, -, hanswer⟩ := first_refusal_ends_expiry (s := s)
    ⟨rfl, rfl, rfl, rfl, rfl⟩ (((Inventory.Named.fresh.saveJob _).saveJob _).saveJob _) hp rfl (by cbv)
  have hdue : (Jobs.advancePreparing.after s).dueJobs = [overdueJob "a", overdueJob "b", overdueJob "c"] := by
    cbv
  have hnow : (Jobs.advancePreparing.after s).clock.now = .epoch := by cbv
  have hwritten : (Jobs.advancePreparing.after s).balks 0 = false := by cbv
  have hsecond : IsFirst (Jobs.advancePreparing.after s).balks 3 1 := by
    refine ⟨.inr (by cbv), fun k hk => Nat.one_le_iff_ne_zero.2 ?_⟩
    rintro rfl
    rcases hk with hk | hk
    · cases hk
    · rw [hwritten] at hk
      cases hk
  rw [hdue] at hfirst hjobs hanswer
  rw [hnow] at hjobs
  obtain rfl : n = 1 := hfirst.unique hsecond
  refine ⟨hjobs 0 _ rfl, hjobs 1 _ rfl, hjobs 2 _ rfl, fun q hq => ?_⟩
  exact absurd ((hanswer q).1 hq).1 (by decide)

/-- **A job that cannot be written holds up others**: of three jobs whose time is over the first cannot be
written once, and the other two, for which no call would be refused, are still ready when the sweep ends; no
notice is delivered. -/
theorem refused_job_holds_up_others :
    let s := overdueSite [⟨1, true⟩]
    s.dueJobs = [overdueJob "a", overdueJob "b", overdueJob "c"] ∧
      (Jobs.poll.after s).inventory.jobsWithStatus .ready =
        [overdueJob "a", overdueJob "b", overdueJob "c"] ∧
      (Jobs.poll.after s).log.length = 0 :=
  ⟨by cbv, by cbv, by cbv⟩

end Depot
