import Depot.Proofs.Run

/-!
# The limit is kept

A depot never takes up more than its limit, as long as estimates hold. Room is reserved only where it is
free, and what is free is reckoned in signed words; but a limit and an estimate below 2^63 are their own
signed readings, and so is what is taken up as long as that is within the limit. What arrives takes up no
more than was reserved for it, an eviction or the end of a transfer leaves room free, and a depot that is
opened again begins with the files that are there.

## Main statements

* `Site.hasRoom_iff` — below 2^63 there is room exactly if the limit is not exceeded.
* `Deed.used_le` — a deed stays within the limit, if estimates hold.
* `used_within_limit` — so does every run.

## Honest scope

The log tells of each transfer that is queued and of each call that ends, so the estimates are those of the
transfers in the log.
-/

namespace Depot

variable {s s' : Site}

/-! ### Estimates -/

/-- **Estimates hold**, as far as a log tells: none is 2^63 or more, and nothing that was delivered is
bigger than estimated. -/
structure EstimatesHold (log : List Happening) : Prop where
  small : ∀ f, .queued f ∈ log → 2 * f.estimatedKb.toNat < UInt64.size
  honest : ∀ time f d, .returned time f (.ok d) ∈ log → d.sizeKb ≤ f.estimatedKb

theorem EstimatesHold.of_prefix {log log' : List Happening} (h : EstimatesHold log') (p : log <+: log') :
    EstimatesHold log :=
  ⟨fun f hf => h.small f (p.subset hf), fun time f d hd => h.honest time f d (p.subset hd)⟩

/-! ### Signed room -/

/-- Below 2^63 there is room exactly if the limit is not exceeded. -/
theorem Site.hasRoom_iff {kb : UInt64} (limit : 2 * s.settings.limitKb.toNat < UInt64.size)
    (used : s.account.used ≤ s.settings.limitKb.toNat) (estimate : 2 * kb.toNat < UInt64.size) :
    s.hasRoom (some kb) = true ↔ s.account.used + kb.toNat ≤ s.settings.limitKb.toNat := by
  have hused : 2 * s.account.used < UInt64.size := by omega
  rw [hasRoom, decide_eq_true_iff, freeKb, freeRoom_of_lt limit hused, signed64_of_lt estimate]
  omega

/-! ### What is taken up -/

/-- A new reservation takes up what is reserved. -/
theorem Account.used_reserve {a : Account} {id : FileId} (kb : UInt64) (h : a.isReserved id = false) :
    (a.reserve id kb).used = a.used + kb.toNat := by
  have hp := ((Account.reserve_perm kb h).map fun e => e.2.toNat).sum_nat
  simp only [used, reserved, Table.total_eq_sum, hp, List.map_cons, List.sum_cons]
  show a.committed + _ = _
  omega

/-- Where a transfer ends, what was reserved for it is free again. -/
theorem Site.Balanced.used_release (h : s.Balanced) {f : FileRecord} {tasks : List Task}
    (rest : s.carried.Perm (f :: recordsOf tasks)) :
    (s.account.release f.fileId).used + f.estimatedKb.toNat = s.account.used := by
  have hrest := h.reserved.trans (rest.map fun f => (f.fileId, f.estimatedKb))
  have hall := (hrest.map fun e => e.2.toNat).sum_nat
  have hleft := ((Account.release_perm hrest).map fun e => e.2.toNat).sum_nat
  simp only [Account.used, Account.reserved, Table.total_eq_sum, hall, hleft, List.map_cons,
    List.sum_cons]
  show s.account.committed + _ + _ = _
  omega

theorem Account.used_discharge_le (a : Account) (kb : Nat) : (a.discharge kb).used ≤ a.used :=
  Nat.add_le_add_right (Nat.sub_le ..) _

theorem Account.used_commit (a : Account) (id : FileId) (kb : UInt64) :
    (a.commit id kb).used = (a.release id).used + kb.toNat :=
  Nat.add_right_comm ..

/-! ### Deeds -/

/-- What happens to files stays within the limit, if estimates hold. -/
theorem FileChange.used_le (c : FileChange s s') (hb : s.Balanced)
    (limit : 2 * s.settings.limitKb.toNat < UInt64.size) (estimates : EstimatesHold s'.log)
    (used : s.account.used ≤ s.settings.limitKb.toNat) :
    s'.account.used ≤ s.settings.limitKb.toNat := by
  cases c with
  | evict e =>
    cases e with
    | aside a => cases a; exact used
    | evicted => exact (Account.used_discharge_le ..).trans used
  | @queued f time grounded wanted room =>
    have hsmall := estimates.small f (List.mem_append_right _ (.head _))
    have hroom := (Site.hasRoom_iff limit used hsmall).1 room
    exact (Account.used_reserve f.estimatedKb (hb.not_reserved grounded)).trans_le hroom
  | attached | detached | unlocked | strayed | extended => exact used

/-- What happens to transfers takes up no more than before, if estimates hold. -/
theorem TransferChange.used_le (c : TransferChange s s') (hb : s.Balanced)
    (estimates : EstimatesHold s'.log) : s'.account.used ≤ s.account.used := by
  cases c with
  | moved => exact le_refl _
  | @arrived f d place tasks rest =>
    have hhonest := estimates.honest _ f d (List.mem_append_right _ (.head _))
    have hle : d.sizeKb.toNat ≤ f.estimatedKb.toNat := UInt64.le_iff_toNat_le.1 hhonest
    have hrelease := hb.used_release rest
    have hcommit := s.account.used_commit f.fileId d.sizeKb
    dsimp only
    omega
  | @givenUp f e tasks rest | @brokenOff f result tasks rest =>
    have hrelease := hb.used_release rest
    dsimp only
    omega
  | setBack => exact le_refl _

/-- **A deed stays within the limit**, if estimates hold. -/
theorem Deed.used_le (d : Deed s s') (hb : s.Balanced)
    (limit : 2 * s.settings.limitKb.toNat < UInt64.size) (estimates : EstimatesHold s'.log)
    (used : s.account.used ≤ s.settings.limitKb.toNat) :
    s'.account.used ≤ s.settings.limitKb.toNat := by
  cases d with
  | change c =>
    cases c with
    | file c => exact c.used_le hb limit estimates used
    | transfer c => exact (c.used_le hb estimates).trans used
    | job c => cases c <;> exact used
    | warned | told | clocked | duties | spoiled => exact used
  | founding r c => cases c <;> exact used

/-- A depot that is opened again takes up no more than before. -/
theorem Site.Balanced.used_reopen_le (h : s.Balanced) (settings : Settings) :
    (s.reopen settings).account.used ≤ s.account.used := by
  show s.inventory.availableKb + 0 ≤ s.account.committed + _
  rw [h.committed]
  exact Nat.add_le_add_left (Nat.zero_le _) _

/-! ### Runs -/

/-- The limit is one, and is kept if estimates hold. -/
structure Site.Within (limitKb : UInt64) (s : Site) : Prop where
  limit : s.settings.limitKb = limitKb
  used : EstimatesHold s.log → s.account.used ≤ limitKb.toNat

theorem Site.Within.deed {limitKb : UInt64} (small : 2 * limitKb.toNat < UInt64.size) (hs : s.Sound)
    (d : Deed s s') (h : s.Within limitKb) : s'.Within limitKb := by
  have hlimit := h.limit
  subst hlimit
  refine ⟨by rw [d.settings], fun estimates => ?_⟩
  exact d.used_le hs.balanced small estimates (h.used (estimates.of_prefix d.log_prefix))

theorem Site.Within.reopen {limitKb : UInt64} {settings : Settings} (hs : s.Sound)
    (same : settings.limitKb = limitKb) (h : s.Within limitKb) : (s.reopen settings).Within limitKb :=
  ⟨same, fun estimates => (hs.balanced.used_reopen_le settings).trans (h.used estimates)⟩

/-- **The limit is kept when estimates hold.** In every run that begins with a depot just opened, whichever
calls are refused: if the files that are there at the beginning are within the limit, which is below 2^63
and stays the same however often the depot is opened again, if no transfer is queued with an estimate of
2^63 or more, and if nothing is delivered that is bigger than its record estimates, then no more is ever
taken up than the limit. -/
theorem used_within_limit (h : s.Secluded) (hn : s.inventory.Named) (ho : s.Opened) (steps : List Step)
    (fits : s.inventory.availableKb ≤ s.settings.limitKb.toNat)
    (limit : 2 * s.settings.limitKb.toNat < UInt64.size)
    (same : ∀ settings, .restart settings ∈ steps → settings.limitKb = s.settings.limitKb)
    (small : ∀ f, .queued f ∈ (s.run steps).log → 2 * f.estimatedKb.toNat < UInt64.size)
    (honest : ∀ time f d, .returned time f (.ok d) ∈ (s.run steps).log → d.sizeKb ≤ f.estimatedKb) :
    (s.run steps).account.used ≤ s.settings.limitKb.toNat := by
  have hstart : s.Within s.settings.limitKb := by
    refine ⟨rfl, fun _ => ?_⟩
    rw [ho.account]
    exact fits
  have hrun := Site.run_induction (.deed limit) .reopen ⟨h, ho.balanced hn⟩ hstart steps same
  exact hrun.used ⟨small, honest⟩

/-- A depot whose archive delivers 60 KB for every file. -/
def steadySite : Site :=
  { Site.blank { cacheRoot := "cache", limitKb := 100 } with
    supply := { standard := { result := .ok { sizeKb := 60 } } } }

/-- Two files of 60 KB are asked for where there is room for one, and the depot is opened again. -/
def twoFileRun : List Step :=
  [.ensure ⟨"r"⟩ ⟨⟨"f"⟩, .spectrum, none, some 60⟩, .move 0, .move 0,
    .ensure ⟨"r"⟩ ⟨⟨"g"⟩, .spectrum, none, some 60⟩, .restart steadySite.settings, .resumePending]

theorem two_files_within_limit : (steadySite.run twoFileRun).account.used ≤ 100 := by
  have hestimates : (steadySite.run twoFileRun).log.all (fun
      | .queued f => decide (2 * f.estimatedKb.toNat < UInt64.size)
      | .returned _ f (.ok d) => decide (d.sizeKb ≤ f.estimatedKb)
      | _ => true) = true := by decide +kernel
  refine used_within_limit (s := steadySite) ⟨rfl, rfl, rfl, rfl, rfl⟩ .fresh ⟨rfl, rfl, rfl⟩ twoFileRun
    (Nat.zero_le _) (by decide) (fun settings hmem => ?_) (fun f hf => ?_) fun time f d hd => ?_
  · simp only [twoFileRun, List.mem_cons, reduceCtorEq, Step.restart.injEq, List.not_mem_nil, or_false,
      false_or] at hmem
    rw [hmem]
  · exact of_decide_eq_true (List.all_eq_true.1 hestimates _ hf)
  · exact of_decide_eq_true (List.all_eq_true.1 hestimates _ hd)

end Depot
