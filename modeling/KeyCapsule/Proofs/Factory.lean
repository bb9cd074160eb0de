import KeyCapsule.Proofs.Exchange
import KeyCapsule.Proofs.MockKem

/-! New sides. Both providers check the presence of the key, the source, the kind of the key and the
parameters in this order, and what comes of it does not depend on a state. -/
namespace KeyCapsule
variable {σ : Type}

namespace DhKem
variable {g : KeyAgreement}

def ownPublic : KeyValue → Except Fault PublicKey
  | .publicKey k => .ok k
  | .foreign .sender curve => .error (.key (.unsupportedCurve curve))
  | other => .error (.key (.otherHalf .sender other.typeName))

def ownPrivate : KeyValue → Except Fault PrivateKey
  | .privateKey k => .ok k
  | .foreign .receiver curve => .error (.key (.unsupportedCurve curve))
  | other => .error (.key (.otherHalf .receiver other.typeName))

theorem ownPublic_ok {key : KeyValue} {k : PublicKey} (h : ownPublic key = .ok k) : key = .publicKey k := by
  cases key with
  | publicKey k' =>
    cases h
    rfl
  | foreign side curve => cases side <;> cases h
  | _ => cases h

theorem ownPrivate_ok {key : KeyValue} {k : PrivateKey} (h : ownPrivate key = .ok k) :
    key = .privateKey k := by
  cases key with
  | privateKey k' =>
    cases h
    rfl
  | foreign side curve => cases side <;> cases h
  | _ => cases h

private theorem bindSender_yields (g : KeyAgreement) (key : KeyValue) (params : ParamsValue)
    (source : Source σ) :
    (bindSender g key params source).Yields (ownPublic key >>= fun k =>
      checkParams (Suite.ofGroup k.group) params >>= fun _ =>
        .ok (sender g (Suite.ofGroup k.group) k source)) := by
  cases key with
  | publicKey k =>
    have hx : (checkParams (Suite.ofGroup k.group) params >>= fun _ =>
          (.ok (sender g (Suite.ofGroup k.group) k source) : Except Fault (Encapsulator σ))) =
        resolve (.publicKey k) params >>= fun s => (.ok () : Except Fault Unit) >>= fun _ =>
          .ok (sender g s k source) := by
      simp only [resolve, suiteOf, ok_bind]
      cases checkParams (Suite.ofGroup k.group) params <;> rfl
    rw [ownPublic, ok_bind, hx]
    exact (Act.yields_lift _).bind fun s _ => (Act.yields_report _).bind fun _ _ => Act.yields_pure _
  | foreign side curve => cases side <;> exact ⟨[], fun _ => rfl⟩
  | _ => exact ⟨[], fun _ => rfl⟩

private theorem bindReceiver_yields (g : KeyAgreement) (key : KeyValue) (params : ParamsValue) :
    (bindReceiver g key params : Act σ (Decapsulator σ)).Yields (ownPrivate key >>= fun k =>
      checkParams (Suite.ofGroup k.group) params >>= fun _ =>
        .ok (receiver g (Suite.ofGroup k.group) k)) := by
  cases key with
  | privateKey k =>
    have hx : (checkParams (Suite.ofGroup k.group) params >>= fun _ =>
          (.ok (receiver g (Suite.ofGroup k.group) k) : Except Fault (Decapsulator σ))) =
        resolve (.privateKey k) params >>= fun s => (.ok () : Except Fault Unit) >>= fun _ =>
          .ok (receiver g s k) := by
      simp only [resolve, suiteOf, ok_bind]
      cases checkParams (Suite.ofGroup k.group) params <;> rfl
    rw [ownPrivate, ok_bind, hx]
    exact (Act.yields_lift _).bind fun s _ => (Act.yields_report _).bind fun _ _ => Act.yields_pure _
  | foreign side curve => cases side <;> exact ⟨[], fun _ => rfl⟩
  | _ => exact ⟨[], fun _ => rfl⟩

/-- What a request for a sender comes to. -/
theorem newEncapsulator_yields (g : KeyAgreement) (name : Datum) (entropy : Source σ) (key : KeyValue)
    (params : ParamsValue) (choice : SourceChoice σ) :
    ((named name g entropy).newEncapsulator key params choice).Yields
      (Provider.presence .sender key >>= fun _ => choice.resolve entropy >>= fun source =>
        ownPublic key >>= fun k => checkParams (Suite.ofGroup k.group) params >>= fun _ =>
          .ok (sender g (Suite.ofGroup k.group) k source)) := by
  refine Provider.newEncapsulator_yields (bindReceiver g) (bindSender_yields g key params) ?_
  intro source enc h
  obtain ⟨k, -, h⟩ := bind_eq_ok.1 h
  obtain ⟨_, -, h⟩ := bind_eq_ok.1 h
  cases h
  exact (fixed_terms _ _).settled

theorem newDecapsulator_yields (g : KeyAgreement) (name : Datum) (entropy : Source σ) (key : KeyValue)
    (params : ParamsValue) :
    ((named name g entropy).newDecapsulator key params).Yields
      (Provider.presence .receiver key >>= fun _ => ownPrivate key >>= fun k =>
        checkParams (Suite.ofGroup k.group) params >>= fun _ =>
          .ok (receiver g (Suite.ofGroup k.group) k)) := by
  refine Provider.newDecapsulator_yields entropy (bindSender g) (bindReceiver_yields g key params) ?_
  intro dec h
  obtain ⟨k, -, h⟩ := bind_eq_ok.1 h
  obtain ⟨_, -, h⟩ := bind_eq_ok.1 h
  cases h
  exact (fixed_terms _ _).settled

def ownGroup? : Side → KeyValue → Option Group
  | .sender, .publicKey k => some k.group
  | .receiver, .privateKey k => some k.group
  | _, _ => none

private theorem ownPublic_error {key : KeyValue} {e : Fault} (h : ownPublic key = .error e) :
    ownGroup? .sender key = none ∧ e.kind = .invalidKey := by
  cases key with
  | publicKey k => cases h
  | foreign side curve => cases side <;> cases h <;> exact ⟨rfl, rfl⟩
  | _ =>
    cases h
    exact ⟨rfl, rfl⟩

private theorem ownPrivate_error {key : KeyValue} {e : Fault} (h : ownPrivate key = .error e) :
    ownGroup? .receiver key = none ∧ e.kind = .invalidKey := by
  cases key with
  | privateKey k => cases h
  | foreign side curve => cases side <;> cases h <;> exact ⟨rfl, rfl⟩
  | _ =>
    cases h
    exact ⟨rfl, rfl⟩

def Fits (s : Suite) : ParamsValue → Prop
  | .absent => True
  | .suiteId id => id.equals (.int s.kemId) = true
  | _ => False

/-- Parameters that name another suite by a value that is no integer, so that no message can show it. -/
def Unshowable (s : Suite) : ParamsValue → Prop
  | .suiteId id => id.equals (.int s.kemId) = false ∧ id.integer? = none
  | _ => False

private theorem shownId_error {id : Datum} (h : id.integer? = none) :
    ∃ e, shownId id = .error e ∧ (e.kind = .value ∨ e.kind = .type) := by
  cases id with
  | bool b => cases h
  | int n => cases h
  | real x => exact ⟨_, rfl, .inl rfl⟩
  | text s => exact ⟨_, rfl, .inl rfl⟩
  | _ => exact ⟨_, rfl, .inr rfl⟩

private theorem shownId_integer {id : Datum} {n : Int} (h : id.integer? = some n) : shownId id = .ok n := by
  cases id with
  | bool b => exact congrArg Except.ok (Option.some.inj h)
  | int m => exact congrArg Except.ok (Option.some.inj h)
  | _ => cases h

/-- Parameters pass if they fit. Otherwise they are refused as parameters, unless the refusal fails over
its own message. -/
private theorem checkParams_cases (s : Suite) (params : ParamsValue) :
    (Fits s params ∧ ¬ Unshowable s params ∧ checkParams s params = .ok ()) ∨
      (¬ Fits s params ∧ ∃ e, checkParams s params = .error e ∧
        ((¬ Unshowable s params ∧ e.kind = .invalidParameter) ∨
          (Unshowable s params ∧ (e.kind = .value ∨ e.kind = .type)))) := by
  cases params with
  | absent => exact .inl ⟨trivial, id, rfl⟩
  | mock p => exact .inr ⟨id, _, rfl, .inl ⟨id, rfl⟩⟩
  | plain d => exact .inr ⟨id, _, rfl, .inl ⟨id, rfl⟩⟩
  | suiteId id =>
    simp only [Fits, Unshowable, checkParams]
    cases he : id.equals (.int s.kemId) with
    | true => exact .inl ⟨rfl, fun h => Bool.noConfusion h.1, rfl⟩
    | false =>
      refine .inr ⟨Bool.false_ne_true, ?_⟩
      cases hi : id.integer? with
      | none =>
        obtain ⟨e, hs, hk⟩ := shownId_error hi
        rw [hs]
        exact ⟨e, rfl, .inr ⟨⟨rfl, rfl⟩, hk⟩⟩
      | some n =>
        rw [shownId_integer hi]
        exact ⟨_, rfl, .inl ⟨fun h => (by cases h.2), rfl⟩⟩

/-- How a request for a side comes out, given whether there is a source to draw from. -/
structure Settles (side : Side) (key : KeyValue) (params : ParamsValue) (source : Prop)
    (r : Except Fault (Terms σ)) : Prop where
  /-- A side is made for its own half of a pair of a suite, a source, and parameters that fit. -/
  made : (∃ t, r = .ok t) ↔ ∃ group, ownGroup? side key = some group ∧ source ∧
    Fits (Suite.ofGroup group) params
  /-- It is bound to the suite of the key and has its sizes. -/
  bound : ∀ t, r = .ok t → ∃ s, suiteOf key = .ok s ∧ t.suite = some s ∧
    t.Fixed s.secretSize s.encapsulationSize
  /-- Everything else is refused as a key or as a parameter, but for identifiers that cannot be shown. -/
  refused : ∀ e, r = .error e → e.kind = .invalidKey ∨ e.kind = .invalidParameter ∨
    ∃ group, ownGroup? side key = some group ∧ source ∧ Unshowable (Suite.ofGroup group) params
  /-- Where only the parameters are wrong, they are what is refused. -/
  mismatch : ∀ group, ownGroup? side key = some group → source →
    ¬ Fits (Suite.ofGroup group) params → ¬ Unshowable (Suite.ofGroup group) params →
    ∃ e, r = .error e ∧ e.kind = .invalidParameter
  /-- An identifier that cannot be shown fails over the message of its own refusal. -/
  wordless : ∀ group, ownGroup? side key = some group → source →
    Unshowable (Suite.ofGroup group) params →
    ∃ e, r = .error e ∧ (e.kind = .value ∨ e.kind = .type)

private theorem settles_of_error {side : Side} {key : KeyValue} {params : ParamsValue} {source : Prop}
    {e : Fault}
    (he : e.kind = .invalidKey ∨ e.kind = .invalidParameter)
    (hn : ∀ group, ownGroup? side key = some group → ¬ source) :
    Settles side key params source (.error e : Except Fault (Terms σ)) where
  made := ⟨fun ⟨_, h⟩ => (nomatch h), fun ⟨group, hg, hs, _⟩ => absurd hs (hn group hg)⟩
  bound := fun _ h => nomatch h
  refused := fun e' h => by
    cases h
    exact he.elim .inl fun h => .inr (.inl h)
  mismatch := fun group hg hs => absurd hs (hn group hg)
  wordless := fun group hg hs => absurd hs (hn group hg)

private theorem settles_of_made {side : Side} {key : KeyValue} {params : ParamsValue} {source : Prop}
    {group : Group} {t : Terms σ} (hg : ownGroup? side key = some group) (hsource : source)
    (hf : Fits (Suite.ofGroup group) params) (hu : ¬ Unshowable (Suite.ofGroup group) params)
    (hs : suiteOf key = .ok (Suite.ofGroup group)) (ht : t.suite = some (Suite.ofGroup group))
    (hfixed : t.Fixed (Suite.ofGroup group).secretSize (Suite.ofGroup group).encapsulationSize) :
    Settles side key params source (.ok t) where
  made := ⟨fun _ => ⟨group, hg, hsource, hf⟩, fun _ => ⟨t, rfl⟩⟩
  bound := fun t' h => by
    cases h
    exact ⟨_, hs, ht, hfixed⟩
  refused := fun _ h => nomatch h
  mismatch := fun group' hg' _ hf' => by
    cases hg.symm.trans hg'
    exact absurd hf hf'
  wordless := fun group' hg' _ hu' => by
    cases hg.symm.trans hg'
    exact absurd hu' hu

private theorem settles_of_unfit {side : Side} {key : KeyValue} {params : ParamsValue} {source : Prop}
    {group : Group} {e : Fault} (hg : ownGroup? side key = some group) (hsource : source)
    (hf : ¬ Fits (Suite.ofGroup group) params)
    (he : (¬ Unshowable (Suite.ofGroup group) params ∧ e.kind = .invalidParameter) ∨
      (Unshowable (Suite.ofGroup group) params ∧ (e.kind = .value ∨ e.kind = .type))) :
    Settles side key params source (.error e : Except Fault (Terms σ)) where
  made := by
    refine ⟨fun ⟨_, h⟩ => (nomatch h), fun ⟨group', hg', _, hf'⟩ => ?_⟩
    cases hg.symm.trans hg'
    exact absurd hf' hf
  bound := fun _ h => nomatch h
  refused := fun e' h => by
    cases h
    rcases he with ⟨-, he⟩ | ⟨hu, -⟩
    · exact .inr (.inl he)
    · exact .inr (.inr ⟨group, hg, hsource, hu⟩)
  mismatch := fun group' hg' _ _ hu' => by
    cases hg.symm.trans hg'
    rcases he with ⟨-, he⟩ | ⟨hu, -⟩
    · exact ⟨e, rfl, he⟩
    · exact absurd hu hu'
  wordless := fun group' hg' _ hu' => by
    cases hg.symm.trans hg'
    rcases he with ⟨hu, -⟩ | ⟨-, he⟩
    · exact absurd hu' hu
    · exact ⟨e, rfl, he⟩

private theorem settles {κ β : Type} {side : Side} {key : KeyValue} {own : Except Fault κ}
    {source : Except Fault β} (group : κ → Group) (make : κ → β → Terms σ)
    (hown : ∀ k, own = .ok k → key.isAbsent = false ∧ ownGroup? side key = some (group k) ∧
      suiteOf key = .ok (Suite.ofGroup (group k)))
    (hother : ∀ e, own = .error e → ownGroup? side key = none ∧ e.kind = .invalidKey)
    (hsource : ∀ e, source = .error e → e.kind = .invalidParameter)
    (hmake : ∀ k b, (make k b).suite = some (Suite.ofGroup (group k)) ∧
      (make k b).Fixed (Suite.ofGroup (group k)).secretSize (Suite.ofGroup (group k)).encapsulationSize)
    (params : ParamsValue) :
    Settles side key params (∃ b, source = .ok b)
      (Provider.presence side key >>= fun _ => source >>= fun b => own >>= fun k =>
        checkParams (Suite.ofGroup (group k)) params >>= fun _ => .ok (make k b)) := by
  cases own with
  | error e =>
    obtain ⟨hn, he⟩ := hother e rfl
    have hnone : ∀ group, ownGroup? side key = some group → ¬ ∃ b, source = .ok b := by
      intro group hg
      cases hn.symm.trans hg
    cases ha : key.isAbsent with
    | true =>
      rw [Provider.presence, ha]
      exact settles_of_error (.inl rfl) hnone
    | false =>
      rw [Provider.presence, ha]
      cases source with
      | error e => exact settles_of_error (.inr (hsource e rfl)) hnone
      | ok b => exact settles_of_error (.inl he) hnone
  | ok k =>
    obtain ⟨ha, hg, hs⟩ := hown k rfl
    rw [Provider.presence, ha]
    cases source with
    | error e =>
      refine settles_of_error (.inr (hsource e rfl)) fun _ _ h => ?_
      obtain ⟨b, hb⟩ := h
      cases hb
    | ok b =>
      have hb : ∃ b', (.ok b : Except Fault β) = .ok b' := ⟨b, rfl⟩
      simp only [Bool.false_eq_true, if_false, ok_bind]
      -- from here on the parameters alone decide
      rcases checkParams_cases (Suite.ofGroup (group k)) params with ⟨hf, hu, hc⟩ | ⟨hf, e, hc, he⟩
      · obtain ⟨ht, hfixed⟩ := hmake k b
        rw [hc, ok_bind]
        exact settles_of_made hg hb hf hu hs ht hfixed
      · rw [hc, error_bind]
        exact settles_of_unfit hg hb hf he

/-- Requests for both sides are settled by one order of checks: they succeed exactly for the right half of
a pair of a suite, a source and parameters that fit, and all refusals but one are those of a key or of a
parameter. -/
theorem requests_settled (g : KeyAgreement) (name : Datum) (entropy : Source σ) (key : KeyValue)
    (params : ParamsValue) (choice : SourceChoice σ) (s : σ) :
    Settles .sender key params (∃ source, choice.resolve entropy = .ok source)
        ((((named name g entropy).newEncapsulator key params choice).run s).result.map
          Encapsulator.toTerms) ∧
      Settles .receiver key params True
        ((((named name g entropy).newDecapsulator key params).run s).result.map
          Decapsulator.toTerms) := by
  constructor
  · rw [(newEncapsulator_yields g name entropy key params choice).result]
    have hown : ∀ k, ownPublic key = .ok k → key.isAbsent = false ∧
        ownGroup? .sender key = some k.group ∧ suiteOf key = .ok (Suite.ofGroup k.group) := by
      intro k hk
      cases ownPublic_ok hk
      exact ⟨rfl, rfl, rfl⟩
    have hsource : ∀ e, choice.resolve entropy = .error e → e.kind = .invalidParameter := by
      intro e he
      cases choice with
      | other d =>
        cases he
        rfl
      | _ => cases he
    simp only [map_bind]
    exact settles PublicKey.group (fun k b => (sender g (Suite.ofGroup k.group) k b).toTerms) hown
      (fun _ => ownPublic_error) hsource (fun _ _ => ⟨rfl, fixed_terms _ _⟩) params
  · rw [(newDecapsulator_yields g name entropy key params).result]
    have hown : ∀ k, ownPrivate key = .ok k → key.isAbsent = false ∧
        ownGroup? .receiver key = some k.group ∧ suiteOf key = .ok (Suite.ofGroup k.group) := by
      intro k hk
      cases ownPrivate_ok hk
      exact ⟨rfl, rfl, rfl⟩
    have hsource : ∀ e, (.ok () : Except Fault Unit) = .error e → e.kind = .invalidParameter :=
      fun e he => nomatch he
    have h := settles PrivateKey.group
      (fun k _ => (receiver g (Suite.ofGroup k.group) k : Decapsulator σ).toTerms) hown
      (fun _ => ownPrivate_error) hsource (fun _ _ => ⟨rfl, fixed_terms _ _⟩) params
    simp only [map_bind]
    have ht : (∃ b, (.ok () : Except Fault Unit) = .ok b) = True := eq_true ⟨(), rfl⟩
    rw [ht] at h
    exact h

/-- Parameters without any identifier are not refused as parameters: the message would show it as a
number. -/
theorem absent_identifier_unshown :
    let source : Source Unit := ⟨fun _ => pure .none⟩
    let key : KeyValue := .publicKey (.coordinate .x25519 ⟨Bytes.zeros 32, by decide⟩)
    ∃ e, (((provider KeyAgreement.standard source).newEncapsulator key (.suiteId .none) .absent).run
      ()).result = .error e ∧ e.kind = .type :=
  ⟨Fault.typeMismatch, rfl, rfl⟩

end DhKem

namespace MockKem

theorem newEncapsulator_yields (name : Datum) (entropy : Source σ) (key : KeyValue)
    (params : ParamsValue) (choice : SourceChoice σ) :
    ((named name entropy).newEncapsulator key params choice).Yields
      (Provider.presence .sender key >>= fun _ => choice.resolve entropy >>= fun source =>
        checkKey .sender key >>= fun k => checkParams params >>= fun p =>
          .ok (sender k p source)) := by
  refine Provider.newEncapsulator_yields bindReceiver (fun source => ?_) ?_
  · exact (Act.yields_lift _).bind fun k _ => (Act.yields_lift _).bind fun p _ => Act.yields_pure _
  · intro source enc h
    obtain ⟨k, -, h⟩ := bind_eq_ok.1 h
    obtain ⟨p, -, h⟩ := bind_eq_ok.1 h
    cases h
    exact ⟨_, _, rfl, rfl⟩

theorem newDecapsulator_yields (name : Datum) (entropy : Source σ) (key : KeyValue)
    (params : ParamsValue) :
    ((named name entropy).newDecapsulator key params).Yields
      (Provider.presence .receiver key >>= fun _ => checkKey .receiver key >>= fun k =>
        checkParams params >>= fun p => .ok (receiver k p)) := by
  refine Provider.newDecapsulator_yields entropy bindSender ?_ ?_
  · exact (Act.yields_lift _).bind fun k _ => (Act.yields_lift _).bind fun p _ => Act.yields_pure _
  · intro dec h
    obtain ⟨k, -, h⟩ := bind_eq_ok.1 h
    obtain ⟨p, -, h⟩ := bind_eq_ok.1 h
    cases h
    exact ⟨_, _, rfl, rfl⟩

end MockKem
end KeyCapsule
