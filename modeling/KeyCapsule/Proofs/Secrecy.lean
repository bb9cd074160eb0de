import Mathlib.Data.List.Forall2
import KeyCapsule.Proofs.Counterpart

/-! Sessions that differ in secret bytes only. What can be seen of a session are its records, the faults of
its steps and the written forms of what they return; as far as the steps of two such sessions end in the
same way, none of this tells them apart. -/
namespace KeyCapsule.Secrecy
open Session
variable {σ α β : Type} {R : σ → σ → Prop} {P : α → β → Prop}

inductive Step (σ : Type)
  | newPair (source : Source σ)
  | newSender (o : Order) (choice : SourceChoice σ)
  | newReceiver (o : Order)
  | encapsulate (side : Nat) (start : Int) (stop : Option Int) (label : String)
  | decapsulate (side : Nat) (message : Datum) (start : Int) (stop : Option Int) (label : String)

structure World (σ : Type) where
  entropy : Source σ
  identifiers : Source σ

structure Table (σ : Type) where
  state : σ
  senders : List (Sending σ)
  receivers : List (Decapsulator σ)

def Table.initial (s : σ) : Table σ := ⟨s, [], []⟩

/-- What can be seen of a step: its records, and the written forms of what it returns or the class and the
wording of its fault. -/
structure Sight where
  log : List Record
  shown : Except (String × String) (List String)

def sight (texts : α → Except Fault (List String)) (o : Outcome σ α) : Sight :=
  ⟨o.log, (o.result >>= texts).mapError fun e => (e.title, e.text)⟩

structure Event where
  ending : Ending
  sight : Sight

def stage (x : Sending σ) (start stop label : Datum) (s : σ) : Stage :=
  match ((x.enc.grant start stop label).run s).result with
  | .error _ => .declined
  | .ok _ => x.reaches s

def pairTexts (k : MockKey) : Except Fault (List String) := .ok [k.written .sender, k.written .receiver]

def sealedTexts (r : Encapsulated) : Except Fault (List String) :=
  r.written.map fun text => [r.key.written, text]

def keyTexts (k : SecretKey) : Except Fault (List String) := .ok [k.written]

variable (g : KeyAgreement)

def Table.step (w : World σ) (t : Table σ) : Step σ → Table σ × Event
  | .newPair source =>
    let out := (MockKem.generate source w.identifiers).run t.state
    ({ t with state := out.state }, ⟨.of out.result, sight pairTexts out⟩)
  | .newSender o choice =>
    let out := (o.newSender g w.entropy choice).run t.state
    let made : Except Fault (Sending σ) :=
      out.result.map fun enc => ⟨enc, o.reaches g (choice.pick w.entropy)⟩
    ({ t with state := out.state, senders := t.senders ++ made.toOption.toList },
      ⟨.of out.result, sight (fun _ => .ok []) out⟩)
  | .newReceiver o =>
    let out := (o.newReceiver g w.entropy).run t.state
    ({ t with state := out.state, receivers := t.receivers ++ out.result.toOption.toList },
      ⟨.of out.result, sight (fun _ => .ok []) out⟩)
  | .encapsulate side start stop label =>
    match t.senders[side]? with
    | none => (t, ⟨.fails, ⟨[], .ok []⟩⟩)
    | some x =>
      let out := (x.enc.encapsulate (.int start) (Datum.ofBound stop) (.text label)).run t.state
      ({ t with state := out.state },
        ⟨.ofSealed (stage x (.int start) (Datum.ofBound stop) (.text label) t.state) out.result,
          sight sealedTexts out⟩)
  | .decapsulate side message start stop label =>
    match t.receivers[side]? with
    | none => (t, ⟨.fails, ⟨[], .ok []⟩⟩)
    | some dec =>
      let out := (dec.decapsulate message (.int start) (Datum.ofBound stop) (.text label)).run t.state
      ({ t with state := out.state }, ⟨.of out.result, sight keyTexts out⟩)

def run (w : World σ) : Table σ → List (Step σ) → List Event
  | _, [] => []
  | t, x :: rest => (t.step g w x).2 :: run w (t.step g w x).1 rest

/-- Steps that differ in the bytes of keys, draws and messages only. -/
inductive Step.Alike (R : σ → σ → Prop) : Step σ → Step σ → Prop
  | newPair {source source' : Source σ} (h : source.Alike R source') :
      Alike R (.newPair source) (.newPair source')
  | newSender {o o' : Order} {choice choice' : SourceChoice σ} (ho : o.Alike o')
      (hc : choice.Alike R choice') : Alike R (.newSender o choice) (.newSender o' choice')
  | newReceiver {o o' : Order} (ho : o.Alike o') : Alike R (.newReceiver o) (.newReceiver o')
  | encapsulate (side : Nat) (start : Int) (stop : Option Int) (label : String) :
      Alike R (.encapsulate side start stop label) (.encapsulate side start stop label)
  | decapsulate (side : Nat) {m m' : Datum} (h : m.Alike m') (start : Int) (stop : Option Int)
      (label : String) :
      Alike R (.decapsulate side m start stop label) (.decapsulate side m' start stop label)

/-- Sources of bytes that are alike; identifiers are no secrets and must be the same. -/
structure World.Alike (R : σ → σ → Prop) (w w' : World σ) : Prop where
  entropy : w.entropy.Alike R w'.entropy
  identifiers : ∀ wanted, (w.identifiers.draw wanted).Mirrors R Eq (w'.identifiers.draw wanted)

structure Table.Alike (R : σ → σ → Prop) (t t' : Table σ) : Prop where
  state : R t.state t'.state
  senders : List.Forall₂ (Sending.Alike g R) t.senders t'.senders
  receivers : List.Forall₂ (ReceivingAlike g) t.receivers t'.receivers

variable {g}

private theorem sight_eq {o : Outcome σ α} {o' : Outcome σ β} {texts : α → Except Fault (List String)}
    {texts' : β → Except Fault (List String)} (h : o.Mirrors R P o')
    (ht : ∀ a b, P a b → texts a = texts' b) : sight texts o = sight texts' o' := by
  obtain ⟨hr, hl, -⟩ := h
  rw [sight, sight, hl]
  generalize o.result = x at hr ⊢
  generalize o'.result = y at hr ⊢
  cases hr with
  | ok h => rw [ok_bind, ok_bind, ht _ _ h]
  | error e => rfl

private theorem getElem?_rel {l : List α} {l' : List β} (h : List.Forall₂ P l l') (i : Nat) :
    Option.Rel P l[i]? l'[i]? := by
  induction h generalizing i with
  | nil => exact .none
  | cons h _ ih =>
    cases i with
    | zero => exact .some h
    | succ i => exact ih i

private theorem append_made {l : List α} {l' : List β} (h : List.Forall₂ P l l') {x : Except Fault α}
    {y : Except Fault β} (hxy : Matched P x y) :
    List.Forall₂ P (l ++ x.toOption.toList) (l' ++ y.toOption.toList) := by
  refine List.rel_append h ?_
  cases hxy with
  | ok h => exact .cons h .nil
  | error e => exact .nil

private theorem generate_mirrors {source source' : Source σ} (hs : source.Alike R source') {w w' : World σ}
    (hw : w.Alike R w') :
    (MockKem.generate source w.identifiers).Mirrors R MockKey.Alike
      (MockKem.generate source' w'.identifiers) := by
  refine (hs.read _).bind fun material material' hm => ?_
  have hid : (w.identifiers.read (.int 16)).Mirrors R Eq (w'.identifiers.read (.int 16)) :=
    (hw.identifiers _).bind fun a b hab => hab ▸ Act.mirrors_lift ((Matched.same _).mono fun _ _ h => h.1)
  refine hid.bind fun id id' hid => ?_
  exact Act.mirrors_pure ⟨congrArg (fun b => Datum.text (MockKem.identifier b)) hid, .bytes hm, rfl⟩

private theorem sealedTexts_eq {r r' : Encapsulated} (h : r.Alike r') : sealedTexts r = sealedTexts r' := by
  rw [sealedTexts, sealedTexts, h.written_eq, h.key.written_eq]

private theorem sending_mirrors (hg : ∀ k, (g.publicOf k).group = k.group) {x y : Sending σ}
    (h : x.Alike g R y) {start : Int} {stop : Option Int} {label : String} {s u : σ} (hs : R s u)
    (hend : Ending.ofSealed (stage x (.int start) (Datum.ofBound stop) (.text label) s)
        ((x.enc.encapsulate (.int start) (Datum.ofBound stop) (.text label)).run s).result =
      Ending.ofSealed (stage y (.int start) (Datum.ofBound stop) (.text label) u)
        ((y.enc.encapsulate (.int start) (Datum.ofBound stop) (.text label)).run u).result) :
    ((x.enc.encapsulate (.int start) (Datum.ofBound stop) (.text label)).run s).Mirrors R
      Encapsulated.Alike
      ((y.enc.encapsulate (.int start) (Datum.ofBound stop) (.text label)).run u) := by
  cases h with
  | mockKem p hk hsource => exact MockKem.sender_mirrors hk.material p hsource _ _ _ s u hs
  | @dhKem k k' source source' hk hsource =>
    refine DhKem.sender_mirrors hg hk hsource hs fun w hw => ?_
    have hx : ∀ (k : PublicKey) (source : Source σ) (s : σ),
        (DhKem.plan g (Suite.ofGroup k.group) k).grant (.int start) (Datum.ofBound stop) (.text label) =
          .ok w →
        stage ⟨DhKem.sender g (Suite.ofGroup k.group) k source, DhKem.reaches g k source⟩ (.int start)
          (Datum.ofBound stop) (.text label) s = DhKem.reaches g k source s := by
      intro k source s hw
      have hgrant : (DhKem.sender g (Suite.ofGroup k.group) k source).grant (.int start)
          (Datum.ofBound stop) (.text label) = liftM ((DhKem.plan g (Suite.ofGroup k.group) k).grant
            (.int start) (Datum.ofBound stop) (.text label)) := DhKem.grant_eq _ _ _ _ _
      rw [stage, hgrant, hw]
      rfl
    have hw' : (DhKem.plan g (Suite.ofGroup k'.group) k').grant (.int start) (Datum.ofBound stop)
        (.text label) = .ok w := by
      rw [DhKem.grant_plan g hk]
      exact hw
    rw [hx k source s hw, hx k' source' u hw'] at hend
    exact hend

private theorem receiving_converges {x y : Decapsulator σ} (h : ReceivingAlike g x y) {m m' : Datum}
    (hm : m.Alike m') (start : Int) (stop : Option Int) (label : String) :
    (x.decapsulate m (.int start) (Datum.ofBound stop) (.text label)).Converges R SecretKey.Alike
      (y.decapsulate m' (.int start) (Datum.ofBound stop) (.text label)) := by
  cases h with
  | dhKem hk => exact DhKem.receiver_converges g hk hm start stop _
  | mockKem p hk => exact MockKem.receiver_converges hk.material p hm start stop _

/-- A step that ends in the same way shows the same, and leaves tables alike. -/
theorem Table.Alike.step (hg : ∀ k, (g.publicOf k).group = k.group) {w w' : World σ} (hw : w.Alike R w')
    {t t' : Table σ} (ht : t.Alike g R t') {x x' : Step σ} (hx : x.Alike R x')
    (hend : (t.step g w x).2.ending = (t'.step g w' x').2.ending) :
    (t.step g w x).1.Alike g R (t'.step g w' x').1 ∧
      (t.step g w x).2.sight = (t'.step g w' x').2.sight := by
  obtain ⟨hs, hsenders, hreceivers⟩ := ht
  cases hx with
  | newPair h =>
    have ho := generate_mirrors h hw _ _ hs
    exact ⟨⟨ho.state, hsenders, hreceivers⟩,
      sight_eq ho fun k k' hk => by rw [pairTexts, pairTexts, hk.written_eq, hk.written_eq]⟩
  | newSender ho hc =>
    have ho := Order.newSender_mirrors g ho hw.entropy hc _ _ hs
    exact ⟨⟨ho.state, append_made hsenders (ho.result.map fun _ _ h => h), hreceivers⟩,
      sight_eq ho fun _ _ _ => rfl⟩
  | newReceiver ho =>
    have ho := Order.newReceiver_mirrors g ho w.entropy w'.entropy _ _ hs
    exact ⟨⟨ho.state, hsenders, append_made hreceivers ho.result⟩, sight_eq ho fun _ _ _ => rfl⟩
  | encapsulate side start stop label =>
    have hseat := getElem?_rel hsenders side
    simp only [Table.step] at hend ⊢
    generalize t.senders[side]? = a at hseat hend ⊢
    generalize t'.senders[side]? = b at hseat hend ⊢
    cases hseat with
    | none => exact ⟨⟨hs, hsenders, hreceivers⟩, rfl⟩
    | some h =>
      have ho := sending_mirrors hg h hs hend
      exact ⟨⟨ho.state, hsenders, hreceivers⟩, sight_eq ho fun _ _ => sealedTexts_eq⟩
  | decapsulate side hm start stop label =>
    have hseat := getElem?_rel hreceivers side
    simp only [Table.step] at hend ⊢
    generalize t.receivers[side]? = a at hseat hend ⊢
    generalize t'.receivers[side]? = b at hseat hend ⊢
    cases hseat with
    | none => exact ⟨⟨hs, hsenders, hreceivers⟩, rfl⟩
    | some h =>
      have ho := receiving_converges h hm start stop label _ _ hs (Ending.isOk_eq hend)
      exact ⟨⟨ho.state, hsenders, hreceivers⟩,
        sight_eq ho fun k k' hk => by rw [keyTexts, keyTexts, hk.written_eq]⟩

/-- So do all steps of a session. -/
theorem Table.Alike.run (hg : ∀ k, (g.publicOf k).group = k.group) {w w' : World σ} (hw : w.Alike R w')
    {t t' : Table σ} (ht : t.Alike g R t') {steps steps' : List (Step σ)}
    (hsteps : List.Forall₂ (Step.Alike R) steps steps')
    (hends : (run g w t steps).map Event.ending = (run g w' t' steps').map Event.ending) :
    (run g w t steps).map Event.sight = (run g w' t' steps').map Event.sight := by
  induction hsteps generalizing t t' with
  | nil => rfl
  | cons hx _ ih =>
    simp only [Secrecy.run, List.map_cons, List.cons.injEq] at hends ⊢
    obtain ⟨hnext, hsight⟩ := ht.step hg hw hx hends.1
    exact ⟨hsight, ih hnext hends.2⟩

/-- Two sessions that differ in the bytes of keys, of randomness and of messages only, and whose steps end in
the same way, have the same records, the same faults and the same written forms. -/
theorem sights_equal (hg : ∀ k, (g.publicOf k).group = k.group) {w w' : World σ} (hw : w.Alike R w')
    {s u : σ} (hs : R s u) {steps steps' : List (Step σ)}
    (hsteps : List.Forall₂ (Step.Alike R) steps steps')
    (hends : (run g w (.initial s) steps).map Event.ending =
      (run g w' (.initial u) steps').map Event.ending) :
    (run g w (.initial s) steps).map Event.sight = (run g w' (.initial u) steps').map Event.sight :=
  Table.Alike.run hg hw ⟨hs, .nil, .nil⟩ hsteps hends

def repeating (b : UInt8) : Source Unit :=
  ⟨fun wanted => pure (.bytes (List.replicate (wanted.integer?.getD 0).toNat b))⟩

def fiveOf (b : UInt8) : Source Unit := ⟨fun _ => pure (.bytes (List.replicate 5 b))⟩

def keyOf (b : UInt8) : MockKey := ⟨"id", .bytes (List.replicate 32 b), MockKey.defaultAlgorithm⟩

def trialParameters : MockParameters := ⟨.int 32, .int 48, .bool false⟩

def trialWorld (b : UInt8) : World Unit := ⟨repeating b, repeating 0⟩

def trial (b : UInt8) : List (Step Unit) :=
  let bytes : { c : Bytes // c.length = 32 } := ⟨List.replicate 32 b, List.length_replicate⟩
  [.newPair (repeating b),
    .newSender ⟨.mockKem, .mock .sender (keyOf b), .mock trialParameters⟩ .absent,
    .newReceiver ⟨.mockKem, .mock .receiver (keyOf b), .mock trialParameters⟩,
    .newSender ⟨.dhKem, .publicKey (.coordinate .x25519 bytes), .absent⟩ (.supplied (fiveOf b)),
    .newReceiver ⟨.dhKem, .privateKey (.seed .x25519 bytes), .absent⟩,
    .encapsulate 0 0 none "Generic",
    .encapsulate 1 0 (some 16) "AES",
    .decapsulate 0 (.bytes (List.replicate 47 b)) 0 none "Generic",
    .decapsulate 1 (.bytes (List.replicate 31 b)) 0 (some 16) "AES"]

private theorem trial_sealed (b : UInt8) :
    ∃ r, (((MockKem.sender (keyOf b) trialParameters (repeating b)).encapsulate (.int 0)
      (Datum.ofBound none) (.text "Generic")).run ()).result = .ok r := by
  have hp : MockKem.InRange trialParameters 32 48 :=
    ⟨rfl, rfl, by decide, by decide, by decide, by decide⟩
  have hw : (MockKem.plan (keyOf b) trialParameters 48).grant (.int 0) (Datum.ofBound none)
      (.text "Generic") = .ok (.int 0, .int 32) := rfl
  have hk : (keyOf b).material.joinable = .ok (List.replicate 32 b) := rfl
  obtain ⟨secret, _, hl, -, -, ha⟩ := MockKem.answer_bytes hp hk (List.replicate 32 b)
  have hin : (32 : Int) ≤ secret.length := Int.le_of_eq hl.symm
  have hlabel : (Datum.text "Generic").isNone = false := rfl
  obtain ⟨key, hkey, -⟩ := SecretKey.slice_bytes (Int.le_refl 0) (by decide) hin hlabel
  have hread : ((repeating b).read (.int (MockKem.nonceSize 48))).run () =
      ⟨.ok (List.replicate 32 b), [], ()⟩ := rfl
  rw [MockKem.sender_run hp (repeating b) hw (), hread, ok_bind, ha, hkey]
  exact ⟨_, rfl⟩

private theorem trial_endings (b : UInt8) :
    (run KeyAgreement.standard (trialWorld b) (.initial ()) (trial b)).map Event.ending =
      [.succeeds, .succeeds, .succeeds, .succeeds, .succeeds, .succeeds, .stops .draw, .fails, .fails] := by
  obtain ⟨r, hr⟩ := trial_sealed b
  let x : Sending Unit := ⟨MockKem.sender (keyOf b) trialParameters (repeating b),
    MockKem.reaches (keyOf b) trialParameters (repeating b)⟩
  -- all but the first request is decided without any hashing
  have h : (run KeyAgreement.standard (trialWorld b) (.initial ()) (trial b)).map Event.ending =
      [.succeeds, .succeeds, .succeeds, .succeeds, .succeeds,
        .ofSealed (stage x (.int 0) (Datum.ofBound none) (.text "Generic") ())
          ((x.enc.encapsulate (.int 0) (Datum.ofBound none) (.text "Generic")).run ()).result,
        .stops .draw, .fails, .fails] := rfl
  rw [h, hr]
  rfl

/-- Zeros and ones cannot be told apart, though most steps succeed with either. -/
theorem sights_equal_zeros_ones :
    let events := fun b : UInt8 => run KeyAgreement.standard (trialWorld b) (.initial ()) (trial b)
    (events 0).map Event.ending = (events 1).map Event.ending ∧
      (events 0).map Event.sight = (events 1).map Event.sight := by
  have hends := (trial_endings 0).trans (trial_endings 1).symm
  have hn : ∀ n, (List.replicate n (0 : UInt8)).length = (List.replicate n (1 : UInt8)).length := by simp
  have hd : ∀ n, (Datum.bytes (List.replicate n 0)).Alike (.bytes (List.replicate n 1)) :=
    fun n => .bytes (hn n)
  have hs : (repeating 0).Alike (fun _ _ => True) (repeating 1) := fun _ => Act.mirrors_pure (hd _)
  have hf : (fiveOf 0).Alike (fun _ _ => True) (fiveOf 1) := fun _ => Act.mirrors_pure (hd 5)
  have hk : (keyOf 0).Alike (keyOf 1) := ⟨rfl, hd 32, rfl⟩
  have hw : (trialWorld 0).Alike (fun _ _ => True) (trialWorld 1) :=
    ⟨hs, fun _ => Act.mirrors_pure rfl⟩
  refine ⟨hends, sights_equal KeyAgreement.group_standardPublic hw trivial ?_ hends⟩
  exact .cons (.newPair hs) <| .cons (.newSender ⟨rfl, .mock _ hk, rfl⟩ .absent) <|
    .cons (.newReceiver ⟨rfl, .mock _ hk, rfl⟩) <|
    .cons (.newSender ⟨rfl, .publicKey rfl, rfl⟩ (.supplied hf)) <|
    .cons (.newReceiver ⟨rfl, .privateKey rfl, rfl⟩) <| .cons (.encapsulate _ _ _ _) <|
    .cons (.encapsulate _ _ _ _) <| .cons (.decapsulate _ (hd 47) _ _ _) <|
    .cons (.decapsulate _ (hd 31) _ _ _) .nil

end KeyCapsule.Secrecy
