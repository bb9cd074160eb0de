import KeyCapsule.Conformance
import KeyCapsule.Proofs.Operation

/-! Rules for runs of the checks. A rule says how the state may move and by which faults a run may end; what both
sides keep to in each of their calls, every check keeps to as a whole. -/
namespace KeyCapsule
variable {σ α β : Type}

/-- How a state may move, and by which faults a run may end. Moves compose, and every exception that can be
recorded is allowed. -/
structure Rule (σ : Type) where
  moves : σ → σ → Prop
  fails : Fault → Prop
  refl : ∀ s, moves s s
  trans : ∀ {s t u}, moves s t → moves t u → moves s u
  recorded : ∀ {e : Fault}, e.Recorded → fails e

namespace Rule

def Keeps (ρ : Rule σ) (x : Act σ α) : Prop :=
  ∀ s, ρ.moves s (x.run s).state ∧ ∀ e, (x.run s).result = .error e → ρ.fails e

variable {ρ : Rule σ}

theorem keeps_pure (a : α) : ρ.Keeps (pure a : Act σ α) := fun s => ⟨ρ.refl s, fun _ h => nomatch h⟩

theorem keeps_lift {x : Except Fault α} (h : ∀ e, x = .error e → ρ.fails e) :
    ρ.Keeps (liftM x : Act σ α) := fun s => ⟨ρ.refl s, h⟩

theorem keeps_throw {e : Fault} (h : ρ.fails e) : ρ.Keeps (throw e : Act σ α) := by
  refine fun s => ⟨ρ.refl s, ?_⟩
  rintro _ ⟨⟩
  exact h

private theorem keeps_plain {x : Except Fault α} (h : Plain x) : ρ.Keeps (liftM x : Act σ α) :=
  keeps_lift fun e he => ρ.recorded (h e he).1

/-- A sequence keeps to a rule if its parts do, the later ones for what the first part really comes to. -/
theorem Keeps.bind_result {x : Act σ α} {f : α → Act σ β} (hx : ρ.Keeps x)
    (hf : ∀ s a, (x.run s).result = .ok a → ρ.Keeps (f a)) : ρ.Keeps (x >>= f) := by
  intro s
  obtain ⟨hmove, hfail⟩ := hx s
  rw [Act.run_bind]
  cases hr : (x.run s).result with
  | error e =>
    refine ⟨hmove, ?_⟩
    rintro _ ⟨⟩
    exact hfail e hr
  | ok a =>
    obtain ⟨hmove', hfail'⟩ := hf s a hr (x.run s).state
    exact ⟨ρ.trans hmove hmove', hfail'⟩

theorem Keeps.bind {x : Act σ α} {f : α → Act σ β} (hx : ρ.Keeps x) (hf : ∀ a, ρ.Keeps (f a)) :
    ρ.Keeps (x >>= f) := hx.bind_result fun _ a _ => hf a

theorem Keeps.attempt {x : Act σ α} (hx : ρ.Keeps x) : ρ.Keeps x.attempt :=
  fun s => ⟨(hx s).1, fun _ h => nomatch h⟩

private theorem Keeps.attempt_bind {x : Act σ α} {f : Except Fault α → Act σ β} (hx : ρ.Keeps x)
    (hok : ∀ a, ρ.Keeps (f (.ok a))) (herr : ∀ e, ρ.fails e → ρ.Keeps (f (.error e))) :
    ρ.Keeps (x.attempt >>= f) := by
  refine hx.attempt.bind_result fun s r h => ?_
  have hr : (x.run s).result = r := Except.ok.inj h
  cases r with
  | ok a => exact hok a
  | error e => exact herr e ((hx s).2 e hr)

theorem Keeps.forM {f : α → Act σ PUnit} (hf : ∀ a, ρ.Keeps (f a)) (items : List α) :
    ρ.Keeps (items.forM f) := by
  induction items with
  | nil => exact keeps_pure _
  | cons a rest ih => exact (hf a).bind fun _ => ih

def failing (allowed : Fault → Prop) (h : ∀ e, e.Recorded → allowed e) : Rule σ where
  moves _ _ := True
  fails := allowed
  refl _ := trivial
  trans _ _ := trivial
  recorded := h _

end Rule

/-- An action that fails by such faults alone. -/
def Act.FailsBy (allowed : Fault → Prop) (x : Act σ α) : Prop := ∀ s e, (x.run s).result = .error e → allowed e

theorem Act.failsBy_iff {allowed : Fault → Prop} (h : ∀ e, e.Recorded → allowed e) {x : Act σ α} :
    x.FailsBy allowed ↔ (Rule.failing allowed h).Keeps x :=
  ⟨fun hx s => ⟨trivial, hx s⟩, fun hx s => (hx s).2⟩

theorem Act.failsBy_pure (allowed : Fault → Prop) (a : α) : (pure a : Act σ α).FailsBy allowed :=
  fun _ _ h => nomatch h

theorem Act.failsBy_throw {allowed : Fault → Prop} {e : Fault} (h : allowed e) :
    (throw e : Act σ α).FailsBy allowed := by
  rintro s _ ⟨⟩
  exact h

namespace Conformance

/-! Changed messages. -/

private theorem plain_shortened (message : Datum) : Plain (shortened message) := message.plain_slice _ _

private theorem plain_lengthened (message : Datum) : Plain (lengthened message) := by
  cases message with
  | bytes b => exact .ok _
  | buffer b => exact .ok _
  | _ => exact .error ⟨⟨rfl, _, rfl⟩, rfl⟩

private theorem plain_tampered (message : Datum) : Plain (tampered message) := by
  refine message.plain_toBuffer.bind fun b => ?_
  cases b with
  | nil => exact .error ⟨⟨rfl, _, rfl⟩, rfl⟩
  | cons first rest => exact .ok _

/-! Parts of the checks. -/

section Parts
variable {ρ : Rule σ}

theorem keeps_require (holds : Bool) (breach : Breach) : ρ.Keeps (require holds breach : Act σ Unit) := by
  cases holds
  · exact Rule.keeps_throw (ρ.recorded ⟨rfl, _, rfl⟩)
  · exact Rule.keeps_pure ()

private theorem keeps_times {x : Act σ Unit} (hx : ρ.Keeps x) (n : Nat) : ρ.Keeps (times n x) := by
  induction n with
  | zero => exact Rule.keeps_pure ()
  | succ n ih => exact hx.bind fun _ => ih

theorem keeps_gather {x : Act σ α} (hx : ρ.Keeps x) (n : Nat) : ρ.Keeps (gather x n) := by
  induction n with
  | zero => exact Rule.keeps_pure []
  | succ n ih => exact hx.attempt.bind fun _ => ih.bind fun _ => Rule.keeps_pure _

/-- What is gathered are results of the action. -/
private theorem gathered {x : Act σ α} {n : Nat} {s : σ} {results : List (Except Fault α)}
    (h : ((gather x n).run s).result = .ok results) {r : Except Fault α} (hr : r ∈ results) :
    ∃ t, (x.run t).result = r := by
  induction n generalizing s results with
  | zero =>
    cases h
    cases hr
  | succ n ih =>
    obtain ⟨first, hf, h⟩ := Act.result_bind_eq_ok.1 h
    obtain ⟨more, hm, h⟩ := Act.result_bind_eq_ok.1 h
    cases h
    rcases List.mem_cons.1 hr with rfl | hr
    · exact ⟨s, Except.ok.inj hf⟩
    · exact ih hm hr

theorem settle_error {results : List (Except Fault α)} {e : Fault} (h : settle results = .error e) :
    ∃ e', .error e' ∈ results ∧ e = passedOn e' := by
  induction results with
  | nil => cases h
  | cons x rest ih =>
    cases x with
    | error e' =>
      cases h
      exact ⟨e', List.mem_cons_self, rfl⟩
    | ok a =>
      cases hr : settle rest with
      | error e' =>
        rw [settle, hr] at h
        cases h
        exact (ih hr).imp fun _ he => ⟨List.mem_cons_of_mem _ he.1, he.2⟩
      | ok more =>
        rw [settle, hr] at h
        cases h

/-- A fault that is passed on is the fault itself or an exception that can be recorded. -/
theorem keeps_settle {results : List (Except Fault α)} (h : ∀ e, .error e ∈ results → ρ.fails e) :
    ρ.Keeps (liftM (settle results) : Act σ (List α)) := by
  refine Rule.keeps_lift fun e he => ?_
  obtain ⟨e', hmem, rfl⟩ := settle_error he
  rw [passedOn]
  split
  · exact ρ.recorded ⟨rfl, _, rfl⟩
  · exact h e' hmem

private theorem keeps_settle_gather {x : Act σ α} (hx : ρ.Keeps x) {n : Nat} {s : σ}
    {results : List (Except Fault α)}
    (h : ((gather x n).run s).result = .ok results) : ρ.Keeps (liftM (settle results) : Act σ (List α)) := by
  refine keeps_settle fun e he => ?_
  obtain ⟨t, ht⟩ := gathered h he
  exact (hx t).2 e ht

private theorem keeps_expectRange (start stop : Datum) {request : Act σ α} (hr : ρ.Keeps request) :
    ρ.Keeps (expectRange start stop request) := by
  have hbreach : ∀ breach, ρ.fails (Fault.breach breach).worded := fun _ =>
    ρ.recorded (Fault.worded_induct ⟨rfl, _, rfl⟩ ⟨rfl, _, rfl⟩)
  refine hr.attempt_bind (fun _ => Rule.keeps_throw (hbreach _)) fun e he => ?_
  dsimp only
  split
  · exact Rule.keeps_pure _
  · split
    · exact Rule.keeps_throw (hbreach _)
    · exact Rule.keeps_throw he

end Parts

def reopen (b : Bench σ) (r : Encapsulated) : Act σ Unit := do
  require (hasLength (← (r.encapsulation.size : Except Fault Nat)) (← b.enc.encapsulationSize))
    .concurrentLength
  require ((← b.dec.whole r.encapsulation).equals r.key) .concurrentDiffers

theorem judgeConcurrent_eq (b : Bench σ) (results : List Encapsulated) :
    judgeConcurrent b results =
      require ((results.map fun r => r.key.encoded).eraseDups.length == results.length) .concurrentRepeat
        >>= fun _ => results.forM (reopen b) := rfl

section Judging
variable {ρ : Rule σ} {b : Bench σ}

/-- The judgement of concurrent requests asks the sender for a size and the receiver for keys alone. -/
theorem keeps_reopen (hsized : ρ.Keeps b.enc.encapsulationSize) (hopened : ∀ m, ρ.Keeps (b.dec.whole m))
    (r : Encapsulated) : ρ.Keeps (reopen b r) :=
  (Rule.keeps_plain (Datum.plain_size _)).bind fun _ => hsized.bind fun _ => (keeps_require _ _).bind fun _ =>
    (hopened _).bind fun _ => keeps_require _ _

theorem keeps_judgeConcurrent (hsized : ρ.Keeps b.enc.encapsulationSize)
    (hopened : ∀ m, ρ.Keeps (b.dec.whole m)) (results : List Encapsulated) :
    ρ.Keeps (judgeConcurrent b results) :=
  (keeps_require _ _).bind fun _ => .forM (keeps_reopen hsized hopened) _

end Judging

structure Obeys (ρ : Rule σ) (b : Bench σ) : Prop where
  secretSize : ρ.Keeps b.enc.secretSize
  encapsulationSize : ρ.Keeps b.enc.encapsulationSize
  supports : ∀ start stop label, ρ.Keeps (b.enc.supports start stop label)
  encapsulate : ∀ start stop label, ρ.Keeps (b.enc.encapsulate start stop label)
  openedSize : ρ.Keeps b.dec.secretSize
  messageSize : ρ.Keeps b.dec.encapsulationSize
  decapsulate : ∀ message start stop label, ρ.Keeps (b.dec.decapsulate message start stop label)

namespace Obeys
variable {ρ : Rule σ} {b : Bench σ} (h : Obeys ρ b)
include h

theorem whole : ρ.Keeps b.enc.whole := h.encapsulate _ _ _

theorem opened (message : Datum) : ρ.Keeps (b.dec.whole message) := h.decapsulate _ _ _ _

theorem sizes : ρ.Keeps (sizes b.enc.toTerms) :=
  h.secretSize.bind fun _ => h.encapsulationSize.bind fun _ => Rule.keeps_pure _

private theorem receiverSizes : ρ.Keeps (Conformance.sizes b.dec.toTerms) :=
  h.openedSize.bind fun _ => h.messageSize.bind fun _ => Rule.keeps_pure _

theorem sizesAreStable : ρ.Keeps (sizesAreStable b) :=
  h.sizes.bind fun _ => h.receiverSizes.bind fun _ => (keeps_require _ _).bind fun _ =>
    keeps_times (h.whole.bind fun _ => h.sizes.bind fun _ => (keeps_require _ _).bind fun _ =>
      h.receiverSizes.bind fun _ => keeps_require _ _) _

theorem roundTrip : ρ.Keeps (roundTrip b) :=
  keeps_times (h.whole.bind fun _ => h.secretSize.bind fun _ => (keeps_require _ _).bind fun _ =>
    (Rule.keeps_plain (Datum.plain_size _)).bind fun _ => h.encapsulationSize.bind fun _ =>
      (keeps_require _ _).bind fun _ => (h.opened _).bind fun _ => keeps_require _ _) _

theorem encapsulationIsFresh : ρ.Keeps (encapsulationIsFresh b) :=
  h.whole.bind fun _ => h.whole.bind fun _ => (keeps_require _ _).bind fun _ => keeps_require _ _

theorem decapsulationIsDeterministic : ρ.Keeps (decapsulationIsDeterministic b) :=
  h.whole.bind fun _ => (h.opened _).bind fun _ => (h.opened _).bind fun _ => keeps_require _ _

theorem expectRanges (message start stop : Datum) : ρ.Keeps (expectRanges b message start stop) :=
  (keeps_expectRange _ _ (h.encapsulate _ _ _)).bind fun _ =>
    (keeps_expectRange _ _ (h.decapsulate _ _ _ _)).bind fun _ =>
      keeps_expectRange _ _ ((Rule.keeps_plain (plain_shortened message)).bind fun _ => h.decapsulate _ _ _ _)

theorem badRangesAreBoundaryErrors : ρ.Keeps (badRangesAreBoundaryErrors b) :=
  h.secretSize.bind fun size => h.whole.bind fun _ => (Rule.keeps_plain (size.plain_plus 1)).bind fun _ =>
    (h.expectRanges _ _ _).bind fun _ => (h.expectRanges _ _ _).bind fun _ => h.expectRanges _ _ _

theorem expectFailure (message : Datum) : ρ.Keeps (expectFailure b message) := by
  refine (h.opened message).attempt_bind (fun _ => ?_) fun e he => ?_
  · exact (Rule.keeps_plain message.plain_size).bind fun _ => Rule.keeps_throw (ρ.recorded ⟨rfl, _, rfl⟩)
  · dsimp only
    split
    · exact Rule.keeps_pure _
    · exact Rule.keeps_throw he

theorem wrongLengthIsDecapsulationFailure : ρ.Keeps (wrongLengthIsDecapsulationFailure b) :=
  h.whole.bind fun _ => (Rule.keeps_plain (plain_shortened _)).bind fun _ =>
    (Rule.keeps_plain (plain_lengthened _)).bind fun _ => (h.expectFailure _).bind fun _ =>
      (h.expectFailure _).bind fun _ => h.expectFailure _

theorem tamperingIsNotSilent : ρ.Keeps (tamperingIsNotSilent b) := by
  refine h.whole.bind fun r => (Rule.keeps_plain (plain_tampered _)).bind fun message => ?_
  refine (h.opened _).attempt_bind (fun _ => keeps_require _ _) fun e he => ?_
  dsimp only
  split
  · exact Rule.keeps_pure _
  · exact Rule.keeps_throw he

theorem slicingIsConsistentOrRefused : ρ.Keeps (slicingIsConsistentOrRefused b) := by
  refine h.secretSize.bind fun size => (Rule.keeps_plain (size.plain_less 2)).bind fun tiny => ?_
  cases tiny with
  | true => exact Rule.keeps_pure _
  | false =>
    refine (h.supports _ _ _).bind fun yes => ?_
    cases yes with
    | true =>
      exact (h.encapsulate _ _ _).bind fun _ => (Rule.keeps_plain (size.plain_plus (-1))).bind fun _ =>
        (keeps_require _ _).bind fun _ => (keeps_require _ _).bind fun _ =>
          (h.decapsulate _ _ _ _).bind fun _ => keeps_require _ _
    | false =>
      refine (h.encapsulate _ _ _).attempt_bind (fun _ => Rule.keeps_throw (ρ.recorded ⟨rfl, _, rfl⟩)) fun e he => ?_
      dsimp only
      split
      · exact Rule.keeps_pure _
      · exact Rule.keeps_throw he

/-- Too few workers are an exception that can be recorded as well. -/
theorem concurrentEncapsulation : ρ.Keeps (concurrentEncapsulation b) := by
  rw [Conformance.concurrentEncapsulation]
  split
  · exact Rule.keeps_throw (ρ.recorded ⟨rfl, _, rfl⟩)
  · exact (keeps_gather h.whole _).bind_result fun s begun hb => (keeps_settle_gather h.whole hb).bind fun _ =>
      (keeps_gather h.whole _).bind_result fun t final hf => (keeps_settle_gather h.whole hf).bind fun _ =>
        keeps_judgeConcurrent h.encapsulationSize h.opened _

/-- Whatever a check is, it keeps to the rule of the two sides. -/
theorem check (c : Check) : ρ.Keeps (c.run b) := by
  cases c with
  | sizesAreStable => exact h.sizesAreStable
  | roundTrip => exact h.roundTrip
  | encapsulationIsFresh => exact h.encapsulationIsFresh
  | decapsulationIsDeterministic => exact h.decapsulationIsDeterministic
  | badRangesAreBoundaryErrors => exact h.badRangesAreBoundaryErrors
  | wrongLengthIsDecapsulationFailure => exact h.wrongLengthIsDecapsulationFailure
  | tamperingIsNotSilent => exact h.tamperingIsNotSilent
  | slicingIsConsistentOrRefused => exact h.slicingIsConsistentOrRefused
  | concurrentEncapsulation => exact h.concurrentEncapsulation

end Obeys

end Conformance
end KeyCapsule
