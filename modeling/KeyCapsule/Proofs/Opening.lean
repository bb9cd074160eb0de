import KeyCapsule.Proofs.Draw

/-! Receivers take no notice of a state. Whichever provider built it, a receiver's answer is told by its
key, the message and the request alone. -/
namespace KeyCapsule
variable {α β : Type}

namespace Act

def Told (x : ∀ σ : Type, Act σ α) : Prop := ∃ r, ∀ σ, (x σ).Yields r

private theorem told_lift (x : Except Fault α) : Told fun σ => (liftM x : Act σ α) :=
  ⟨x, fun _ => yields_lift x⟩

theorem Told.bind {x : ∀ σ : Type, Act σ α} {f : ∀ σ : Type, α → Act σ β} (hx : Told x)
    (hf : ∀ a, Told fun σ => f σ a) : Told fun σ => x σ >>= f σ := by
  obtain ⟨r, hx⟩ := hx
  cases r with
  | error e => exact ⟨.error e, fun σ => (hx σ).bind (q := fun _ => .error e) fun a h => nomatch h⟩
  | ok a =>
    obtain ⟨r, hf⟩ := hf a
    refine ⟨r, fun σ => (hx σ).bind (q := fun _ => r) fun a' h => ?_⟩
    cases h
    exact hf σ

end Act

namespace Terms
open Act

/-- What leaves a decapsulation does not depend on the side that it leaves. -/
private theorem disclosed_eq {σ τ : Type} (t : Terms σ) (u : Terms τ) (r : Except Fault α) :
    (t.disclosed r).1 = (u.disclosed r).1 := by
  cases r with
  | ok a => rfl
  | error e =>
    simp only [disclosed]
    split
    · rfl
    · split <;> rfl

private theorem told_conceal (t : ∀ σ : Type, Terms σ) {x : ∀ σ : Type, Act σ α} (hx : Told x) :
    Told fun σ => (t σ).conceal (x σ) := by
  obtain ⟨r, hx⟩ := hx
  refine ⟨((t Unit).disclosed r).1, fun σ => ?_⟩
  obtain ⟨log, hx⟩ := hx σ
  refine ⟨log ++ ((t σ).disclosed r).2, fun s => ?_⟩
  rw [conceal_run, hx, disclosed_eq (t Unit) (t σ)]

private theorem told_receive {t : ∀ σ : Type, Terms σ} {size start stop label : Datum}
    (ht : ∀ σ, (t σ).encapsulationSize = pure size) (hg : Told fun σ => (t σ).grant start stop label)
    {hook : ∀ σ : Type, Bytes → Datum → Datum → Datum → Act σ α}
    (hh : ∀ b first last, Told fun σ => hook σ b first last label) (message : Datum) :
    Told fun σ => (t σ).receive (hook σ) message start stop label := by
  have hfail : Told fun σ => ((t σ).reportFailure >>= fun _ => throw Fault.undecapsulated : Act σ α) :=
    ⟨.error .undecapsulated, fun σ => (yields_report _).bind fun _ _ => yields_lift (.error _)⟩
  have hserved : Told fun σ => ((t σ).grant start stop label >>= fun w =>
      (liftM message.size : Act σ Nat) >>= fun length =>
        if !(Datum.int length).equals size then
          (t σ).reportFailure >>= fun _ => throw Fault.undecapsulated
        else (t σ).conceal (liftM message.toBytes >>= fun b => hook σ b w.1 w.2 label) : Act σ α) := by
    refine hg.bind fun w => (told_lift _).bind fun length => ?_
    cases (Datum.int length).equals size with
    | false => exact hfail
    | true => exact told_conceal t ((told_lift _).bind fun b => hh b w.1 w.2)
  cases message with
  | none => exact told_lift (.error (.missing .encapsulation))
  | _ =>
    refine hserved.imp fun r hr σ => ?_
    simp only [receive, ht]
    exact hr σ

end Terms

/-- The answers of a receiver of the suites. -/
theorem DhKem.told_receiver (g : KeyAgreement) (s : Suite) (key : PrivateKey)
    (message start stop label : Datum) :
    Act.Told fun σ => (DhKem.receiver g s key : Decapsulator σ).decapsulate message start stop label := by
  refine Terms.told_receive (t := fun _ => DhKem.terms "DHKEMDecapsulator" s) (fun _ => rfl) ?_ ?_ message
  · simp only [DhKem.grant_eq]
    exact Act.told_lift _
  · exact fun b first last => (Act.told_lift _).bind fun secret => Act.told_lift _

theorem MockKem.told_receiver (k : MockKey) (p : MockParameters) (message start stop label : Datum) :
    Act.Told fun σ => (MockKem.receiver k p : Decapsulator σ).decapsulate message start stop label := by
  refine Terms.told_receive (t := fun _ => MockKem.terms "MockDecapsulator" p) (fun _ => rfl) ?_ ?_ message
  · simp only [MockKem.grant_eq]
    exact Act.told_lift _
  · exact fun b first last => (Act.told_lift _).bind fun secret => Act.told_lift _

end KeyCapsule
