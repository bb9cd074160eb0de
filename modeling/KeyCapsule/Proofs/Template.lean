import KeyCapsule.Proofs.Admission
import KeyCapsule.Proofs.Verdict

/-! What the templates enforce by themselves. A window outside the secret and a message of a wrong length are
turned down before an algorithm sees them, so the checks that probe for them pass whatever the algorithms
do. -/
namespace KeyCapsule
variable {σ α : Type}

namespace Datum

theorem length_window_last {α : Type} (items : List α) :
    (window items Option.none (some (-1))).length = items.length - 1 := by
  simp only [window, place, Option.map_none, Option.getD_none, Option.map_some, Option.getD_some,
    List.drop_zero, List.length_take]
  rw [if_pos (by decide : (-1 : Int) < 0)]
  omega

end Datum

namespace Conformance
variable {b : Bench σ} {first t : σ} {secret message : Int}

private theorem shortened_like {m : Datum} {bytes : Bytes} (h : m.bytesLike? = some bytes) :
    ∃ m' short, shortened m = .ok m' ∧ m'.bytesLike? = some short ∧ short.length = bytes.length - 1 := by
  cases m with
  | bytes c => cases h; exact ⟨_, _, rfl, rfl, Datum.length_window_last _⟩
  | buffer c => cases h; exact ⟨_, _, rfl, rfl, Datum.length_window_last _⟩
  | _ => cases h

private theorem lengthened_like {m : Datum} {bytes : Bytes} (h : m.bytesLike? = some bytes) :
    ∃ m', lengthened m = .ok m' ∧ m'.bytesLike? = some (bytes ++ [0]) := by
  cases m with
  | bytes c => cases h; exact ⟨_, rfl, rfl⟩
  | buffer c => cases h; exact ⟨_, rfl, rfl⟩
  | _ => cases h

private theorem expectRange_range (start stop first last size : Datum) :
    expectRange start stop (throw (Fault.range first last size).worded : Act σ α) =
      if (Fault.range first last size).writable then pure () else throw .unwritable := by
  rw [Fault.worded]
  cases (Fault.range first last size).writable <;> rfl

/-- Two sides that check a request first refuse all three requests for a window outside the secret. -/
theorem expectRanges_outside (he : b.enc.secretSize = pure (.int secret))
    (hd : b.dec.secretSize = pure (.int secret)) (hs : ∃ sealing, b.enc.encapsulate = b.enc.serve sealing)
    (hp : ∃ opening, b.dec.decapsulate = b.dec.receive opening) {m : Datum} {bytes : Bytes}
    (hm : m.bytesLike? = some bytes) {start stop : Int}
    (ho : ¬ (0 ≤ start ∧ start ≤ stop ∧ stop ≤ secret)) :
    expectRanges b m (.int start) (.int stop) =
      if (Fault.range (.int start) (.int stop) (.int secret)).writable then pure ()
      else throw .unwritable := by
  obtain ⟨sealing, hs⟩ := hs
  obtain ⟨opening, hp⟩ := hp
  obtain ⟨m', short, hshort, hm', -⟩ := shortened_like hm
  have hl : SecretKey.generic.isNone = false := rfl
  simp only [expectRanges, hs, hp, Terms.serve_outside he ho hl,
    Terms.receive_outside hd ho hl (Datum.isNone_of_bytesLike hm), hshort, Act.lift_ok, Act.pure_bind,
    Terms.receive_outside hd ho hl (Datum.isNone_of_bytesLike hm'), expectRange_range]
  cases (Fault.range (.int start) (.int stop) (.int secret)).writable <;> rfl

/-- The windows that are probed are named in their refusals, if the size after the secret's can be written. -/
theorem range_writable (hsecret : 0 ≤ secret) (hw : (Datum.int (secret + 1)).writable = true) :
    ∀ w ∈ [(-1, secret), (1, 0), (0, secret + 1)],
      (Fault.range (.int w.1) (.int w.2) (.int secret)).writable = true := by
  rw [Datum.writable_int, decide_eq_true_eq] at hw
  have hbig := Text.lt_digitBound (n := 1) (by decide)
  simp only [List.forall_mem_cons, Fault.writable, Datum.writable_int, Bool.and_eq_true, decide_eq_true_eq]
  refine ⟨?_, ?_, ?_, by simp⟩ <;> omega

/-- What a receiver does about a message of a wrong length: it is asked for its support of the whole secret,
and reports that it failed. -/
def refusal (t : Terms σ) (secret : Int) : Act σ Unit := do
  let _ ← t.supports (.int 0) (.int secret) SecretKey.generic
  t.reportFailure

/-- Two sides that take both operations from the templates. Their sizes are constants, the whole secret is
supported under the general label, and a request for it gives a message of the announced length; what the
algorithms do otherwise, and what else is supported, is left open. -/
structure Templated (b : Bench σ) (first : σ) (secret message : Int) : Prop where
  enc : b.enc.toTerms.Fixed secret message
  dec : b.dec.toTerms.Fixed secret message
  encapsulate : ∃ sealing, b.enc.encapsulate = b.enc.serve sealing
  decapsulate : ∃ opening, b.dec.decapsulate = b.dec.receive opening
  secret_nonneg : 0 ≤ secret
  message_pos : 1 ≤ message
  accepts : ∀ t, Reaches b first t →
    ((b.dec.supports (.int 0) (.int secret) SecretKey.generic).run t).result = .ok true
  seals : ∀ t, Reaches b first t → ∃ r m, (b.enc.whole.run t).result = .ok r ∧
    r.encapsulation.bytesLike? = some m ∧ (m.length : Int) = message

namespace Templated

private theorem expectRanges_eq (h : Templated b first secret message) {m : Datum} {bytes : Bytes}
    (hm : m.bytesLike? = some bytes) {start stop : Int}
    (ho : ¬ (0 ≤ start ∧ start ≤ stop ∧ stop ≤ secret)) :
    expectRanges b m (.int start) (.int stop) =
      if (Fault.range (.int start) (.int stop) (.int secret)).writable then pure ()
      else throw .unwritable :=
  expectRanges_outside h.enc.secretSize h.dec.secretSize h.encapsulate h.decapsulate hm ho

/-- The check of bad windows makes one request that is served, and no other one reaches an algorithm. It fails
only over a window that cannot be written. -/
private theorem badRanges_run (h : Templated b first secret message) (ht : Reaches b first t) :
    (badRangesAreBoundaryErrors b).run t =
      ⟨if (Datum.int (secret + 1)).writable then .ok () else .error .unwritable, (b.enc.whole.run t).log,
        (b.enc.whole.run t).state⟩ := by
  obtain ⟨r, m, hr, hm, -⟩ := h.seals t ht
  have hnonneg := h.secret_nonneg
  rw [badRangesAreBoundaryErrors, h.enc.secretSize, Act.pure_bind, Act.run_bind_ok hr]
  simp only [Datum.plus, Datum.integer?_int, Act.lift_ok, Act.pure_bind]
  rw [h.expectRanges_eq hm (by omega), h.expectRanges_eq hm (by omega), h.expectRanges_eq hm (by omega)]
  cases hw : (Datum.int (secret + 1)).writable with
  | true =>
    obtain ⟨h₁, h₂, h₃, -⟩ := by simpa only [List.forall_mem_cons] using range_writable hnonneg hw
    rw [if_pos h₁, if_pos h₂, if_pos h₃, Act.pure_bind, Act.pure_bind, Act.run_pure, Outcome.after_mk,
      List.append_nil]
    rfl
  | false =>
    have hlast : (Fault.range (.int 0) (.int (secret + 1)) (.int secret)).writable = false := by
      simp only [Fault.writable, hw, Bool.and_false, Bool.false_and]
    rw [hlast]
    cases (Fault.range (.int (-1)) (.int secret) (.int secret)).writable <;>
      cases (Fault.range (.int 1) (.int 0) (.int secret)).writable <;>
        exact congrArg (Outcome.mk _ · _) (List.append_nil _)

private theorem refusal_run (h : Templated b first secret message) (ht : Reaches b first t) :
    ((refusal b.dec.toTerms secret).run t).result = .ok () := by
  rw [refusal, Act.run_bind_ok (h.accepts t ht)]
  rfl

private theorem expectFailure_run (h : Templated b first secret message) (ht : Reaches b first t) {m : Datum}
    {bytes : Bytes} (hm : m.bytesLike? = some bytes) (hb : (bytes.length : Int) ≠ message) :
    (expectFailure b m).run t = (refusal b.dec.toTerms secret).run t := by
  obtain ⟨opening, hp⟩ := h.decapsulate
  have hnonneg := h.secret_nonneg
  have hl : SecretKey.generic.isNone = false := rfl
  have ha := h.accepts t ht
  have hrun : (b.dec.whole m).run t = ⟨.error .undecapsulated,
      ((b.dec.supports (.int 0) (.int secret) SecretKey.generic).run t).log ++ [b.dec.failure],
      ((b.dec.supports (.int 0) (.int secret) SecretKey.generic).run t).state⟩ := by
    rw [Decapsulator.whole, hp, Terms.receive_absent h.dec.secretSize, Terms.receive_misfit h.dec hm hb,
      Terms.grant_labelled h.dec.secretSize hl, checkWindow_int, if_pos (by omega), Act.lift_ok,
      Act.pure_bind, Act.bind_assoc, Act.run_bind_ok ha]
    rfl
  rw [expectFailure, Act.run_bind, refusal, Act.run_bind_ok ha]
  have hattempt : (b.dec.whole m).attempt.run t = ⟨.ok ((b.dec.whole m).run t).result,
    ((b.dec.whole m).run t).log, ((b.dec.whole m).run t).state⟩ := rfl
  have hd : Fault.undecapsulated.isA .decapsulate = true := rfl
  rw [hattempt, hrun]
  dsimp only
  rw [if_pos hd, Act.run_pure, Outcome.after_mk, List.append_nil]
  rfl

private theorem expectFailures_run (h : Templated b first secret message) (ht : Reaches b first t)
    {messages : List Datum}
    (hm : ∀ m ∈ messages, ∃ bytes, m.bytesLike? = some bytes ∧ (bytes.length : Int) ≠ message) :
    (messages.forM (expectFailure b)).run t = (times messages.length (refusal b.dec.toTerms secret)).run t ∧
      ((messages.forM (expectFailure b)).run t).result = .ok () := by
  induction messages generalizing t with
  | nil => exact ⟨rfl, rfl⟩
  | cons m rest ih =>
    obtain ⟨bytes, hlike, hb⟩ := hm m List.mem_cons_self
    have hstep := h.expectFailure_run ht hlike hb
    have hok := h.refusal_run ht
    have hreach := ht.trans (follows_expectFailure (b := b) m t)
    rw [hstep] at hreach
    obtain ⟨hrun, hresult⟩ := ih hreach fun m hmem => hm m (List.mem_cons_of_mem _ hmem)
    rw [List.forM, List.length_cons, times, Act.run_bind_ok (hstep ▸ hok), hstep, Act.run_bind_ok hok]
    exact ⟨congrArg _ hrun, hresult⟩

private theorem wrongLength_run (h : Templated b first secret message) (ht : Reaches b first t) :
    let sealed := b.enc.whole.run t
    (wrongLengthIsDecapsulationFailure b).run t =
        ((times 3 (refusal b.dec.toTerms secret)).run sealed.state).after sealed.log ∧
      ((wrongLengthIsDecapsulationFailure b).run t).result = .ok () := by
  intro sealed
  obtain ⟨r, m, hr, hm, hlength⟩ := h.seals t ht
  obtain ⟨short, m₁, hshort, hm₁, hless⟩ := shortened_like hm
  obtain ⟨long, hlong, hm₂⟩ := lengthened_like hm
  have hpos := h.message_pos
  have hwrong : ∀ x ∈ [short, long, .bytes []],
      ∃ bytes, x.bytesLike? = some bytes ∧ (bytes.length : Int) ≠ message := by
    simp only [List.forall_mem_cons]
    refine ⟨⟨_, hm₁, by omega⟩, ⟨_, hm₂, ?_⟩, ⟨_, rfl, ?_⟩, by simp⟩
    · rw [List.length_append, List.length_singleton]
      omega
    · rw [List.length_nil]
      omega
  have hrest : (wrongLengthIsDecapsulationFailure b).run t =
      (([short, long, .bytes []].forM (expectFailure b)).run sealed.state).after sealed.log := by
    rw [wrongLengthIsDecapsulationFailure, Act.run_bind_ok hr]
    dsimp only
    rw [hshort, hlong, Act.lift_ok, Act.pure_bind, Act.lift_ok, Act.pure_bind]
    simp only [List.forM, bind_pure_unit]
    rfl
  obtain ⟨hrun, hresult⟩ := h.expectFailures_run (ht.trans (follows_whole t)) hwrong
  rw [hrest, hrun]
  exact ⟨rfl, hrun ▸ hresult⟩

end Templated

def hollowTerms (type : String) : Terms Unit where
  type := type
  secretSize := return .int 0
  encapsulationSize := return .int 1
  supports start stop label :=
    if start.equals (.int 0) && stop.equals (.int 0) && label.equals SecretKey.generic then return true
    else throw (.primitive .runtime "not to be asked")

def keyOfByte (b : UInt8) (label : Datum) : SecretKey := ⟨[b], label, List.cons_ne_nil b []⟩

def hollowSealing (_ _ label : Datum) : Act Unit Encapsulated :=
  return ⟨keyOfByte 7 label, .bytes [1], .none⟩

def hollowOpening (_ : Bytes) (_ _ _ : Datum) : Act Unit SecretKey :=
  throw (.primitive .runtime "never opened")

def hollow : Provider Unit where
  type := "HollowKEM"
  name := some "hollow"
  newEncapsulator _ _ _ := return .ofHook (hollowTerms "HollowEncapsulator") hollowSealing
  newDecapsulator _ _ := return .ofHook (hollowTerms "HollowDecapsulator") hollowOpening

end Conformance
end KeyCapsule
