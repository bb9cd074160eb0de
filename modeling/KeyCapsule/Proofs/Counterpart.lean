import KeyCapsule.Proofs.Blind
import KeyCapsule.Proofs.Order

/-! Sides and their counterparts. Orders whose keys differ in secret bytes only are met alike, with the same
records, and the sides that come of them are counterparts of each other. -/
namespace KeyCapsule
variable {σ : Type} {R : σ → σ → Prop}

structure MockKey.Alike (k k' : MockKey) : Prop where
  id : k.id = k'.id
  material : k.material.Alike k'.material
  algorithm : k.algorithm = k'.algorithm

theorem MockKey.Alike.written_eq {k k' : MockKey} (h : k.Alike k') (side : Side) :
    k.written side = k'.written side := by
  rw [written, written, h.id, h.algorithm]

theorem PublicKey.typeName_eq {k k' : PublicKey} (h : k.group = k'.group) : k.typeName = k'.typeName := by
  cases k with
  | point c q => cases k' <;> cases h; rfl
  | coordinate l u => cases k' <;> cases h; cases l <;> rfl

theorem PrivateKey.typeName_eq {k k' : PrivateKey} (h : k.group = k'.group) :
    k.typeName = k'.typeName := by
  cases k with
  | scalar c n => cases k' <;> cases h; rfl
  | seed l s => cases k' <;> cases h; cases l <;> rfl

namespace KeyValue

inductive Alike : KeyValue → KeyValue → Prop
  | publicKey {k k' : PublicKey} (h : k.group = k'.group) : Alike (.publicKey k) (.publicKey k')
  | privateKey {k k' : PrivateKey} (h : k.group = k'.group) : Alike (.privateKey k) (.privateKey k')
  | mock (side : Side) {k k' : MockKey} (h : k.Alike k') : Alike (.mock side k) (.mock side k')
  | foreign (side : Side) (curve : String) : Alike (.foreign side curve) (.foreign side curve)
  | plain {d e : Datum} (h : d.Alike e) : Alike (.plain d) (.plain e)

variable {v v' : KeyValue}

private theorem Alike.isAbsent_eq (h : v.Alike v') : v.isAbsent = v'.isAbsent := by
  cases h with
  | plain h => cases h <;> rfl
  | _ => rfl

theorem Alike.typeName_eq (h : v.Alike v') : v.typeName = v'.typeName := by
  cases h with
  | publicKey h => exact PublicKey.typeName_eq h
  | privateKey h => exact PrivateKey.typeName_eq h
  | mock => rfl
  | foreign => rfl
  | plain h => exact h.typeName_eq

end KeyValue

namespace Provider
variable {type : String} {name : Datum} {entropy entropy' : Source σ} {key key' : KeyValue}
  {params : ParamsValue} {choice choice' : SourceChoice σ}

private theorem announce_mirrors {t : Terms σ} (ht : t.Settled) (title : Datum) (noun : String) :
    (announce title noun t).Mirrors R (fun _ _ => True) (announce title noun t) := by
  obtain ⟨secret, message, hs, hm⟩ := ht
  rw [announce, hs, Act.pure_bind, hm, Act.pure_bind]
  exact Act.mirrors_report _

private theorem newEncapsulator_mirrors {P : Encapsulator σ → Encapsulator σ → Prop}
    {bindSender : KeyValue → ParamsValue → Source σ → Act σ (Encapsulator σ)}
    (bindReceiver : KeyValue → ParamsValue → Act σ (Decapsulator σ)) (hkey : key.Alike key')
    (he : entropy.Alike R entropy') (hc : choice.Alike R choice')
    (hb : (choice.pick entropy).Alike R (choice'.pick entropy') →
      (bindSender key params (choice.pick entropy)).Mirrors R P
        (bindSender key' params (choice'.pick entropy')))
    (ht : ∀ enc enc', P enc enc' → enc.toTerms.Settled ∧ enc.toTerms = enc'.toTerms) :
    ((ofRules type name entropy bindSender bindReceiver).newEncapsulator key params choice).Mirrors R P
      ((ofRules type name entropy' bindSender bindReceiver).newEncapsulator key' params choice') := by
  have ha : (admitSender entropy key choice).Mirrors R
      (fun s s' => s.Alike R s' ∧ s = choice.pick entropy ∧ s' = choice'.pick entropy')
      (admitSender entropy' key' choice') := by
    rw [admitSender, admitSender, hkey.isAbsent_eq]
    cases key'.isAbsent with
    | true => exact Act.mirrors_throw _
    | false => exact Act.mirrors_lift (hc.resolve he)
  refine ha.bind fun source source' hs => ?_
  obtain ⟨hs, rfl, rfl⟩ := hs
  refine (hb hs).bind fun enc enc' henc => ?_
  obtain ⟨hset, heq⟩ := ht enc enc' henc
  rw [← heq]
  exact (announce_mirrors hset _ _).bind fun _ _ _ => Act.mirrors_pure henc

private theorem newDecapsulator_mirrors (entropy entropy' : Source σ)
    {P : Decapsulator σ → Decapsulator σ → Prop}
    (bindSender : KeyValue → ParamsValue → Source σ → Act σ (Encapsulator σ))
    {bindReceiver : KeyValue → ParamsValue → Act σ (Decapsulator σ)} (hkey : key.Alike key')
    (hb : (bindReceiver key params).Mirrors R P (bindReceiver key' params))
    (ht : ∀ dec dec', P dec dec' → dec.toTerms.Settled ∧ dec.toTerms = dec'.toTerms) :
    ((ofRules type name entropy bindSender bindReceiver).newDecapsulator key params).Mirrors R P
      ((ofRules type name entropy' bindSender bindReceiver).newDecapsulator key' params) := by
  have ha : (admitReceiver key : Act σ Unit).Mirrors R (fun _ _ => True) (admitReceiver key') := by
    rw [admitReceiver, admitReceiver, hkey.isAbsent_eq]
    cases key'.isAbsent with
    | true => exact Act.mirrors_throw _
    | false => exact Act.mirrors_pure trivial
  refine ha.bind fun _ _ _ => hb.bind fun dec dec' hdec => ?_
  obtain ⟨hset, heq⟩ := ht dec dec' hdec
  rw [← heq]
  exact (announce_mirrors hset _ _).bind fun _ _ _ => Act.mirrors_pure hdec

end Provider

namespace DhKem
variable {g : KeyAgreement} {key key' : KeyValue} {params : ParamsValue} {source source' : Source σ}

private theorem resolve_matched {suite suite' : Suite} (hk : suiteOf key = .ok suite)
    (hk' : suiteOf key' = .ok suite') (h : suite = suite') (params : ParamsValue) :
    Matched (fun s s' => s = suite ∧ s' = suite') (resolve key params) (resolve key' params) := by
  rw [resolve, resolve, hk, hk', ok_bind, ok_bind, h]
  exact (Matched.same (checkParams suite' params)).bind fun _ _ _ => .ok ⟨rfl, rfl⟩

private theorem bindSender_mirrors (g : KeyAgreement) (h : key.Alike key') (params : ParamsValue)
    (source source' : Source σ) :
    (bindSender g key params source).Mirrors R
      (fun enc enc' => ∃ k k' : PublicKey, key = .publicKey k ∧ key' = .publicKey k' ∧ k.group = k'.group ∧
        enc = sender g (Suite.ofGroup k.group) k source ∧
        enc' = sender g (Suite.ofGroup k'.group) k' source')
      (bindSender g key' params source') := by
  have ht := h.typeName_eq
  cases h with
  | @publicKey k k' hk =>
    have hs := congrArg Suite.ofGroup hk
    refine (Act.mirrors_lift (resolve_matched rfl rfl hs params)).bind fun s s' hss => ?_
    obtain ⟨rfl, rfl⟩ := hss
    have hr : (reportBinding "encapsulator" (Suite.ofGroup k.group) : Act σ Unit) =
        reportBinding "encapsulator" (Suite.ofGroup k'.group) := congrArg _ hs
    rw [hr]
    exact (Act.mirrors_report _).bind fun _ _ _ => Act.mirrors_pure ⟨k, k', rfl, rfl, hk, rfl, rfl⟩
  | foreign side curve => cases side <;> exact Act.mirrors_throw _
  | _ => exact Act.mirrors_fault (congrArg (fun t => Fault.key (.otherHalf .sender t)) ht)

private theorem bindReceiver_mirrors (g : KeyAgreement) (h : key.Alike key') (params : ParamsValue) :
    (bindReceiver g key params : Act σ (Decapsulator σ)).Mirrors R
      (fun dec dec' => ∃ k k' : PrivateKey, k.group = k'.group ∧
        dec = receiver g (Suite.ofGroup k.group) k ∧ dec' = receiver g (Suite.ofGroup k'.group) k')
      (bindReceiver g key' params) := by
  have ht := h.typeName_eq
  cases h with
  | @privateKey k k' hk =>
    have hs := congrArg Suite.ofGroup hk
    refine (Act.mirrors_lift (resolve_matched rfl rfl hs params)).bind fun s s' hss => ?_
    obtain ⟨rfl, rfl⟩ := hss
    have hr : (reportBinding "decapsulator" (Suite.ofGroup k.group) : Act σ Unit) =
        reportBinding "decapsulator" (Suite.ofGroup k'.group) := congrArg _ hs
    rw [hr]
    exact (Act.mirrors_report _).bind fun _ _ _ => Act.mirrors_pure ⟨k, k', hk, rfl, rfl⟩
  | foreign side curve => cases side <;> exact Act.mirrors_throw _
  | _ => exact Act.mirrors_fault (congrArg (fun t => Fault.key (.otherHalf .receiver t)) ht)

end DhKem

namespace MockKem

def reaches (k : MockKey) (p : MockParameters) (source : Source σ) (s : σ) : Stage :=
  let drawn : Act σ Bytes := do
    let size ← (p.encapsulationSize.plus (-tagSize) : Except Fault Datum)
    source.read size
  match (drawn.run s).result with
  | .error _ => .draw
  | .ok nonce =>
    match sealWith k.material p nonce with
    | .error _ => .derivation
    | .ok _ => .complete

variable {key key' : KeyValue} {params : ParamsValue}

private theorem checkKey_matched (side : Side) (h : key.Alike key') :
    Matched (fun k k' => k.Alike k' ∧ key = .mock side k ∧ key' = .mock side k') (checkKey side key)
      (checkKey side key') := by
  have ht := h.typeName_eq
  have hf : ∀ {P : MockKey → MockKey → Prop}, Matched P
      (.error (.key (.notMock side key.typeName))) (.error (.key (.notMock side key'.typeName))) :=
    ht ▸ .error _
  cases h with
  | mock half h =>
    cases side <;> cases half
    · exact .ok ⟨h, rfl, rfl⟩
    · exact hf
    · exact hf
    · exact .ok ⟨h, rfl, rfl⟩
  | _ => cases side <;> exact hf

private theorem bindSender_mirrors (h : key.Alike key') (params : ParamsValue) (source source' : Source σ) :
    (bindSender key params source).Mirrors R
      (fun enc enc' => ∃ k k' p, key = .mock .sender k ∧ key' = .mock .sender k' ∧ params = .mock p ∧
        k.Alike k' ∧ enc = sender k p source ∧ enc' = sender k' p source')
      (bindSender key' params source') := by
  refine (Act.mirrors_lift (checkKey_matched .sender h)).bind fun k k' hk => ?_
  refine (Act.mirrors_lift (.same (checkParams params))).bind fun p p' hp => ?_
  cases hp.1
  exact Act.mirrors_pure ⟨k, k', p, hk.2.1, hk.2.2, eq_mock_of_checkParams hp.2, hk.1, rfl, rfl⟩

private theorem bindReceiver_mirrors (h : key.Alike key') (params : ParamsValue) :
    (bindReceiver key params : Act σ (Decapsulator σ)).Mirrors R
      (fun dec dec' => ∃ k k' p, k.Alike k' ∧ dec = receiver k p ∧ dec' = receiver k' p)
      (bindReceiver key' params) := by
  refine (Act.mirrors_lift (checkKey_matched .receiver h)).bind fun k k' hk => ?_
  refine (Act.mirrors_lift (.same (checkParams params))).bind fun p p' hp => ?_
  cases hp.1
  exact Act.mirrors_pure ⟨k, k', p, hk.1, rfl, rfl⟩

end MockKem

namespace Session

/-- A sender, and how far it gets from a state with a request that it grants. -/
structure Sending (σ : Type) where
  enc : Encapsulator σ
  reaches : σ → Stage

namespace Sending

inductive Alike (g : KeyAgreement) (R : σ → σ → Prop) : Sending σ → Sending σ → Prop
  | dhKem {k k' : PublicKey} {source source' : Source σ} (hk : k.group = k'.group)
      (hs : source.Alike R source') :
      Alike g R ⟨DhKem.sender g (Suite.ofGroup k.group) k source, DhKem.reaches g k source⟩
        ⟨DhKem.sender g (Suite.ofGroup k'.group) k' source', DhKem.reaches g k' source'⟩
  | mockKem {k k' : MockKey} (p : MockParameters) {source source' : Source σ} (hk : k.Alike k')
      (hs : source.Alike R source') :
      Alike g R ⟨MockKem.sender k p source, MockKem.reaches k p source⟩
        ⟨MockKem.sender k' p source', MockKem.reaches k' p source'⟩

theorem Alike.terms {g : KeyAgreement} {x y : Sending σ} (h : x.Alike g R y) :
    x.enc.toTerms.Settled ∧ x.enc.toTerms = y.enc.toTerms := by
  cases h with
  | dhKem hk hs =>
    refine ⟨(DhKem.fixed_terms _ _).settled, ?_⟩
    change DhKem.terms _ _ = DhKem.terms _ _
    rw [hk]
  | mockKem p hk hs => exact ⟨⟨_, _, rfl, rfl⟩, rfl⟩

end Sending

inductive ReceivingAlike (g : KeyAgreement) : Decapsulator σ → Decapsulator σ → Prop
  | dhKem {k k' : PrivateKey} (hk : k.group = k'.group) :
      ReceivingAlike g (DhKem.receiver g (Suite.ofGroup k.group) k)
        (DhKem.receiver g (Suite.ofGroup k'.group) k')
  | mockKem {k k' : MockKey} (p : MockParameters) (hk : k.Alike k') :
      ReceivingAlike g (MockKem.receiver k p) (MockKem.receiver k' p)

theorem ReceivingAlike.terms {g : KeyAgreement} {x y : Decapsulator σ} (h : ReceivingAlike g x y) :
    x.toTerms.Settled ∧ x.toTerms = y.toTerms := by
  cases h with
  | dhKem hk =>
    refine ⟨(DhKem.fixed_terms _ _).settled, ?_⟩
    change DhKem.terms _ _ = DhKem.terms _ _
    rw [hk]
  | mockKem p hk => exact ⟨⟨_, _, rfl, rfl⟩, rfl⟩

namespace Order

structure Alike (o o' : Order) : Prop where
  algorithm : o.algorithm = o'.algorithm
  key : o.key.Alike o'.key
  params : o.params = o'.params

def reaches (o : Order) (g : KeyAgreement) (source : Source σ) : σ → Stage :=
  match o.algorithm, o.key, o.params with
  | .dhKem, .publicKey k, _ => DhKem.reaches g k source
  | .mockKem, .mock _ k, .mock p => MockKem.reaches k p source
  | _, _, _ => fun _ => .complete

variable {g : KeyAgreement} {entropy entropy' : Source σ} {choice choice' : SourceChoice σ} {o o' : Order}

/-- Senders are met alike, and with the same records. -/
theorem newSender_mirrors (g : KeyAgreement) (ho : o.Alike o') (he : entropy.Alike R entropy')
    (hc : choice.Alike R choice') :
    (o.newSender g entropy choice).Mirrors R
      (fun enc enc' => Sending.Alike g R ⟨enc, o.reaches g (choice.pick entropy)⟩
        ⟨enc', o'.reaches g (choice'.pick entropy')⟩)
      (o'.newSender g entropy' choice') := by
  obtain ⟨algorithm, key, params⟩ := o
  obtain ⟨algorithm', key', params'⟩ := o'
  obtain ⟨ha, hk, hp⟩ := ho
  cases ha
  cases hp
  cases algorithm with
  | dhKem =>
    refine Provider.newEncapsulator_mirrors (DhKem.bindReceiver g) hk he hc (fun hs => ?_)
      fun _ _ h => h.terms
    refine (DhKem.bindSender_mirrors g hk params _ _).mono fun enc enc' h => ?_
    obtain ⟨k, k', rfl, rfl, hg, rfl, rfl⟩ := h
    exact .dhKem hg hs
  | mockKem =>
    refine Provider.newEncapsulator_mirrors MockKem.bindReceiver hk he hc (fun hs => ?_)
      fun _ _ h => h.terms
    refine (MockKem.bindSender_mirrors hk params _ _).mono fun enc enc' h => ?_
    obtain ⟨k, k', p, rfl, rfl, rfl, hk, rfl, rfl⟩ := h
    exact .mockKem p hk hs

/-- So are receivers. -/
theorem newReceiver_mirrors (g : KeyAgreement) (ho : o.Alike o') (entropy entropy' : Source σ) :
    (o.newReceiver g entropy).Mirrors R (ReceivingAlike g) (o'.newReceiver g entropy') := by
  obtain ⟨algorithm, key, params⟩ := o
  obtain ⟨algorithm', key', params'⟩ := o'
  obtain ⟨ha, hk, hp⟩ := ho
  cases ha
  cases hp
  cases algorithm with
  | dhKem =>
    refine Provider.newDecapsulator_mirrors entropy entropy' (DhKem.bindSender g) hk ?_ fun _ _ h => h.terms
    refine (DhKem.bindReceiver_mirrors g hk params).mono fun dec dec' h => ?_
    obtain ⟨k, k', hg, rfl, rfl⟩ := h
    exact .dhKem hg
  | mockKem =>
    refine Provider.newDecapsulator_mirrors entropy entropy' MockKem.bindSender hk ?_ fun _ _ h => h.terms
    refine (MockKem.bindReceiver_mirrors hk params).mono fun dec dec' h => ?_
    obtain ⟨k, k', p, hk, rfl, rfl⟩ := h
    exact .mockKem p hk

end Order
end Session
end KeyCapsule
