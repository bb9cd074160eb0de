import KeyCapsule.Proofs.Alike

/-! Requests served side by side. Two sides whose secrets differ grant the same windows; what they seal
differs in secret bytes only, and so does what they open, as far as both do. -/
namespace KeyCapsule
variable {σ α β : Type} {R : σ → σ → Prop} {P : α → β → Prop}

private theorem window_of_checkWindow {start : Int} {stop : Option Int} {size : Datum} {w : Datum × Datum}
    (h : checkWindow (.int start) (Datum.ofBound stop) size = .ok w) :
    w = (.int start, (stop.map Datum.int).getD size) := by
  obtain ⟨-, rfl, -⟩ := checkWindow_eq_ok.1 h
  cases stop <;> rfl

namespace Terms

private theorem window_of_verdict {type : String} {size : Datum}
    {supports : Datum → Datum → Datum → Except Fault Bool} {start : Int} {stop : Option Int}
    {label : Datum} {w : Datum × Datum}
    (h : verdict type size supports (.int start) (Datum.ofBound stop) label = .ok w) :
    w = (.int start, (stop.map Datum.int).getD size) ∧ label.isNone = false := by
  obtain ⟨hl, hv, -⟩ := verdict_eq_ok.1 h
  exact ⟨window_of_checkWindow hv, hl⟩

variable {t : Terms σ} {start stop label : Datum} {v : Except Fault (Datum × Datum)}

private theorem grant_mirrors (hv : t.grant start stop label = liftM v) :
    (t.grant start stop label).Mirrors R (fun w w' => w = w' ∧ v = .ok w) (t.grant start stop label) := by
  rw [hv]
  exact Act.mirrors_lift (.same v)

private theorem serve_mirrors (hv : t.grant start stop label = liftM v)
    {hook : Datum → Datum → Datum → Act σ α} {hook' : Datum → Datum → Datum → Act σ β}
    (hh : ∀ first last, (hook first last label).Mirrors R P (hook' first last label)) :
    (t.serve hook start stop label).Mirrors R P (t.serve hook' start stop label) := by
  refine (grant_mirrors hv).bind fun w w' hw => ?_
  cases hw.1
  exact hh w.1 w.2

private theorem receive_converges {size : Datum} (hv : t.grant start stop label = liftM v)
    (hsize : t.encapsulationSize = pure size) {hook : Bytes → Datum → Datum → Datum → Act σ α}
    {hook' : Bytes → Datum → Datum → Datum → Act σ β}
    (opened : Bytes → Datum → Datum → Except Fault α) (opened' : Bytes → Datum → Datum → Except Fault β)
    (hh : ∀ b first last, hook b first last label = liftM (opened b first last))
    (hh' : ∀ b first last, hook' b first last label = liftM (opened' b first last))
    (hc : ∀ b c w, v = .ok w → Covered P (opened b w.1 w.2) (opened' c w.1 w.2))
    {m m' : Datum} (hm : m.Alike m') :
    (t.receive hook m start stop label).Converges R P (t.receive hook' m' start stop label) := by
  cases hn : m.isNone with
  | true =>
    have hn' : m'.isNone = true := hm.isNone_eq.symm.trans hn
    cases m <;> cases hn
    cases m' <;> cases hn'
    exact (Act.mirrors_throw _).converges
  | false =>
    rw [receive_given t hook hn, receive_given t hook' (hm.isNone_eq.symm.trans hn), hm.size_eq, hsize]
    refine (grant_mirrors hv).bind_converges fun w w' hw => ?_
    obtain ⟨rfl, hw⟩ := hw
    refine (Act.mirrors_lift (.same _)).bind_converges fun n n' hn => ?_
    cases hn.1
    simp only [Act.pure_bind]
    split
    · exact t.failure_mirrors.converges
    · simp only [hh, hh', Act.lift_bind]
      refine t.conceal_converges ?_
      have hb := hm.toBytes
      generalize m.toBytes = x at hb ⊢
      generalize m'.toBytes = y at hb ⊢
      cases hb with
      | ok _ => exact hc _ _ w hw
      | error e => exact .inl rfl

end Terms

namespace Hkdf.Request

private theorem terms_alike (d : Digest) (i j : Bytes) (length : Datum) :
    Matched (fun a b => a.2 = b.2) (terms d (.bytes i) length) (terms d (.bytes j) length) := by
  refine (Matched.same (wordLength length)).bind fun n n' hn => ?_
  cases hn.1
  simp only [context, ok_bind]
  split
  · exact .error _
  · exact .ok rfl

private theorem derive_alike (d : Digest) {m m' : Datum} (hm : m.Alike m') (i j : Bytes) (length : Datum) :
    Matched Bytes.Alike (derive d m (.bytes i) length) (derive d m' (.bytes j) length) := by
  refine (terms_alike d i j length).bind fun a b hab => ?_
  refine hm.joinable.bind fun x y _ => .ok ?_
  simp only [Bytes.Alike, length_expand, hab]

end Hkdf.Request

namespace MockKem
variable {k k' : MockKey} {m m' : Datum} {source source' : Source σ}

private theorem secretOf_alike (hm : m.Alike m') (p : MockParameters) (nonce nonce' : Bytes) :
    Matched Bytes.Alike (secretOf m p (.bytes nonce)) (secretOf m' p (.bytes nonce')) := by
  refine (Matched.same p.encode).bind fun encoded encoded' he => ?_
  cases he.1
  exact Hkdf.Request.derive_alike .sha256 hm _ _ p.secretSize

private theorem tagOf_alike (hm : m.Alike m') (nonce nonce' : Bytes) :
    Matched Bytes.Alike (tagOf m (.bytes nonce)) (tagOf m' (.bytes nonce')) := by
  refine (Hkdf.Request.derive_alike .sha256 hm _ _ _).bind fun key key' _ => .ok ?_
  simp only [Bytes.Alike, List.length_take, Hmac.length_tag]

private theorem sealWith_alike (hm : m.Alike m') (p : MockParameters) {nonce nonce' : Bytes}
    (hn : nonce.Alike nonce') :
    Matched (fun a b => a.1.Alike b.1 ∧ a.2.Alike b.2) (sealWith m p nonce) (sealWith m' p nonce') := by
  refine (secretOf_alike hm p nonce nonce').bind fun secret secret' hs => ?_
  refine (tagOf_alike hm nonce nonce').bind fun tag tag' ht => .ok ⟨?_, hs⟩
  simp only [Bytes.Alike, List.length_append, show nonce.length = nonce'.length from hn,
    show tag.length = tag'.length from ht]

private theorem encapsulate_mirrors (hk : k.material.Alike k'.material) (p : MockParameters)
    (hs : source.Alike R source') (start stop label : Datum) :
    (encapsulate k p source start stop label).Mirrors R Encapsulated.Alike
      (encapsulate k' p source' start stop label) := by
  refine (Act.mirrors_lift (.same _)).bind fun size size' he => ?_
  cases he.1
  refine (hs.read size).bind fun nonce nonce' hn => ?_
  refine (Act.mirrors_lift (sealWith_alike hk p hn)).bind fun a b hab => ?_
  refine (Act.mirrors_lift (SecretKey.slice_alike hab.2 start stop label)).bind fun key key' hkey => ?_
  refine (Act.mirrors_lift (.same p.encode)).bind fun encoded encoded' he => ?_
  cases he.1
  exact Act.mirrors_pure ⟨hkey, .bytes hab.1, rfl⟩

theorem sender_mirrors (hk : k.material.Alike k'.material) (p : MockParameters)
    (hs : source.Alike R source') (start stop label : Datum) :
    ((sender k p source).encapsulate start stop label).Mirrors R Encapsulated.Alike
      ((sender k' p source').encapsulate start stop label) :=
  Terms.serve_mirrors (grant_eq _ p start stop label) fun first last =>
    encapsulate_mirrors hk p hs first last label

/-- Whether a tag is right may show, but not more than that. -/
private theorem openWith_covered (hm : m.Alike m') (p : MockParameters) {b c : Bytes} :
    Covered Bytes.Alike (openWith m p b) (openWith m' p c) := by
  have hs := secretOf_alike hm p (b.take (b.length - tagSize)) (c.take (c.length - tagSize))
  have ht := tagOf_alike hm (b.take (b.length - tagSize)) (c.take (c.length - tagSize))
  simp only [openWith]
  generalize secretOf m p _ = x at hs ⊢
  generalize secretOf m' p _ = y at hs ⊢
  generalize tagOf m _ = u at ht ⊢
  generalize tagOf m' _ = v at ht ⊢
  cases hs with
  | error e => exact .inl rfl
  | @ok secret secret' hs =>
    cases ht with
    | error e => exact .inl rfl
    | @ok tag tag' ht =>
      have hv : ∀ (q : Bool) (s : Bytes), Veils (if q then throw .undecapsulated else pure s) := by
        rintro (_ | _) s e he <;> cases he
        exact .inl rfl
      refine Covered.of_veils (hv _ secret) (hv _ secret') fun a a' ha ha' => ?_
      cases (guard_eq_ok.1 ha).2
      cases (guard_eq_ok.1 ha').2
      exact hs

/-- Receivers tell nothing of their keys' material or of a message, as far as both open it or neither. -/
theorem receiver_converges (hk : k.material.Alike k'.material) (p : MockParameters) {d e : Datum}
    (hd : d.Alike e) (start : Int) (stop : Option Int) (label : Datum) :
    ((receiver k p).decapsulate d (.int start) (Datum.ofBound stop) label).Converges R SecretKey.Alike
      ((receiver k' p).decapsulate e (.int start) (Datum.ofBound stop) label) := by
  refine Terms.receive_converges (grant_eq "MockDecapsulator" p _ _ label) rfl
    (fun b first last => openWith k.material p b >>= fun secret =>
      SecretKey.slice (.bytes secret) first last label)
    (fun b first last => openWith k'.material p b >>= fun secret =>
      SecretKey.slice (.bytes secret) first last label)
    (fun b first last => Act.lift_bind _ _) (fun b first last => Act.lift_bind _ _) ?_ hd
  intro b c w hw
  obtain ⟨rfl, hl⟩ := Terms.window_of_verdict hw
  -- behind a good tag both bounds of the window are integers
  have hv : ∀ (m : Datum) (b secret : Bytes), openWith m p b = .ok secret →
      Veils (SecretKey.slice (.bytes secret) (.int start) ((stop.map Datum.int).getD p.secretSize) label) := by
    intro m b secret h
    obtain ⟨n, hn, -⟩ := size_of_openWith h
    cases stop with
    | none => exact SecretKey.slice_veils secret rfl hn hl
    | some n => exact SecretKey.slice_veils secret rfl rfl hl
  exact (openWith_covered hk p).bind (fun s s' hs => .of_matched (SecretKey.slice_alike hs _ _ label))
    (fun s hs => hv _ _ s hs) (fun s hs => hv _ _ s hs)

end MockKem

inductive Stage
  /-- It is turned down as such. -/
  | declined
  | draw
  | derivation
  | agreement
  | complete
  deriving DecidableEq

/-- How a step ends. Of a failed encapsulation it shows where it stopped. -/
inductive Ending
  | succeeds
  | fails
  | stops (stage : Stage)
  deriving DecidableEq

namespace Ending

def of : Except Fault α → Ending
  | .ok _ => succeeds
  | .error _ => fails

def ofSealed (stage : Stage) : Except Fault α → Ending
  | .ok _ => succeeds
  | .error _ => stops stage

theorem isOk_eq {x : Except Fault α} {y : Except Fault β} (h : of x = of y) : x.isOk = y.isOk := by
  cases x <;> cases y <;> first | rfl | cases h

private theorem stage_eq {stage stage' : Stage} {x : Except Fault α} {y : Except Fault β}
    (h : ofSealed stage x = ofSealed stage' y) (hx : ∀ a, x = .ok a → stage = .complete)
    (hy : ∀ b, y = .ok b → stage' = .complete) : stage = stage' := by
  cases x with
  | ok a =>
    cases y with
    | ok b => rw [hx a rfl, hy b rfl]
    | error f => cases h
  | error e =>
    cases y with
    | ok b => cases h
    | error f => exact Ending.stops.inj h

end Ending

namespace DhKem
open Transcript
variable {g : KeyAgreement} {k k' : PublicKey} {source source' : Source σ}

def reached (g : KeyAgreement) (k : PublicKey) (material : Bytes) : Stage :=
  match (Suite.ofGroup k.group).deriveKey (.bytes material) with
  | .error _ => .derivation
  | .ok ephemeral =>
    match agreeWith g (Suite.ofGroup k.group) ephemeral k with
    | .error _ => .agreement
    | .ok _ => .complete

def answerAt (message secret : Bytes) (start stop label : Datum) : Stage → Except Fault Encapsulated
  | .derivation => .error .noScalar
  | .agreement => .error (.key .refusedAgreement)
  | _ => (SecretKey.slice (.bytes secret) start stop label).map fun key => ⟨key, .bytes message, .none⟩

private theorem answer_reached (hg : ∀ k, (g.publicOf k).group = k.group) (k : PublicKey) (material : Bytes)
    (start stop label : Datum) :
    ∃ message secret : Bytes, message.length = k.group.encodedSize ∧ secret.length = k.group.secretSize ∧
      answer g (Suite.ofGroup k.group) k material start stop label =
        answerAt message secret start stop label (reached g k material) := by
  rw [answer_eq, reached]
  cases hd : (Suite.ofGroup k.group).deriveKey (.bytes material) with
  | error e => exact ⟨Bytes.zeros _, Bytes.zeros _, Bytes.length_zeros _, Bytes.length_zeros _, rfl⟩
  | ok ephemeral =>
    have he := Suite.group_deriveKey hd
    simp only [agreeWith, Suite.agree_ofGroup g he rfl, sealedBy?]
    cases g.exchange ephemeral k with
    | none => exact ⟨Bytes.zeros _, Bytes.zeros _, Bytes.length_zeros _, Bytes.length_zeros _, rfl⟩
    | some agreed =>
      refine ⟨_, _, ?_, length_secret _, rfl⟩
      rw [PublicKey.length_serialize, hg, he]

private theorem reached_of_answer {material : Bytes}
    {start stop label : Datum} {r : Encapsulated}
    (h : answer g (Suite.ofGroup k.group) k material start stop label = .ok r) :
    reached g k material = .complete := by
  rw [answer_eq] at h
  rw [reached]
  cases hd : (Suite.ofGroup k.group).deriveKey (.bytes material) with
  | error e =>
    rw [hd] at h
    cases h
  | ok ephemeral =>
    rw [hd] at h
    simp only [agreeWith, Suite.agree_ofGroup g (Suite.group_deriveKey hd) rfl, sealedBy?] at h ⊢
    cases hx : g.exchange ephemeral k with
    | none =>
      rw [hx] at h
      cases h
    | some agreed => rfl

private theorem answer_alike (hg : ∀ k, (g.publicOf k).group = k.group) (hk : k.group = k'.group)
    {material material' : Bytes} {start stop label : Datum}
    (hend : Ending.ofSealed (reached g k material)
        (answer g (Suite.ofGroup k.group) k material start stop label) =
      Ending.ofSealed (reached g k' material')
        (answer g (Suite.ofGroup k.group) k' material' start stop label)) :
    Matched Encapsulated.Alike (answer g (Suite.ofGroup k.group) k material start stop label)
      (answer g (Suite.ofGroup k.group) k' material' start stop label) := by
  have hstage := Ending.stage_eq hend (fun _ => reached_of_answer)
    (fun _ hr => reached_of_answer (hk ▸ hr))
  obtain ⟨message, secret, hm, hs, h⟩ := answer_reached hg k material start stop label
  obtain ⟨message', secret', hm', hs', h'⟩ := answer_reached hg k' material' start stop label
  have hmessage : message.Alike message' := hm.trans (hk ▸ hm'.symm)
  have hsecret : secret.Alike secret' := hs.trans (hk ▸ hs'.symm)
  have hslice := SecretKey.slice_alike hsecret start stop label
  rw [← hk] at h'
  rw [h, h', hstage]
  cases reached g k' material' with
  | derivation => exact .error _
  | agreement => exact .error _
  | _ => exact hslice.bind fun key key' hkey => .ok ⟨hkey, .bytes hmessage, rfl⟩

def reaches (g : KeyAgreement) (k : PublicKey) (source : Source σ) (s : σ) : Stage :=
  match ((source.read (.int (Suite.ofGroup k.group).privateKeySize)).run s).result with
  | .error _ => .draw
  | .ok material => reached g k material

theorem grant_plan (g : KeyAgreement) (hk : k.group = k'.group) :
    (plan g (Suite.ofGroup k'.group) k').grant = (plan g (Suite.ofGroup k.group) k).grant := by
  rw [plan, plan, hk]

/-- Senders tell no more than how far they got. -/
theorem sender_mirrors (hg : ∀ k, (g.publicOf k).group = k.group) (hk : k.group = k'.group)
    (hsource : source.Alike R source') {start stop label : Datum} {s u : σ} (hs : R s u)
    (hend : ∀ w, (plan g (Suite.ofGroup k.group) k).grant start stop label = .ok w →
      Ending.ofSealed (reaches g k source s)
          (((sender g (Suite.ofGroup k.group) k source).encapsulate start stop label).run s).result =
        Ending.ofSealed (reaches g k' source' u)
          (((sender g (Suite.ofGroup k'.group) k' source').encapsulate start stop label).run u).result) :
    (((sender g (Suite.ofGroup k.group) k source).encapsulate start stop label).run s).Mirrors R
      Encapsulated.Alike
      (((sender g (Suite.ofGroup k'.group) k' source').encapsulate start stop label).run u) := by
  have hgrant : (plan g (Suite.ofGroup k'.group) k').grant start stop label =
      (plan g (Suite.ofGroup k.group) k).grant start stop label := by
    rw [grant_plan g hk]
  rw [sender_serves, sender_serves] at hend ⊢
  cases hw : (plan g (Suite.ofGroup k.group) k).grant start stop label with
  | error e =>
    rw [Plan.run_refused source s hw, Plan.run_refused source' u (hgrant.trans hw)]
    exact ⟨.error e, rfl, hs⟩
  | ok w =>
    replace hend := hend w hw
    rw [Plan.run_granted source s hw, Plan.run_granted source' u (hgrant.trans hw)] at hend ⊢
    obtain ⟨hr, hl, ht⟩ := hsource.read (.int (Suite.ofGroup k.group).privateKeySize) s u hs
    simp only [plan, reaches, ← hk] at hend ⊢
    refine ⟨?_, hl, ht⟩
    generalize ((source.read _).run s).result = x at hr hend ⊢
    generalize ((source'.read _).run u).result = y at hr hend ⊢
    cases hr with
    | error e => exact .error e
    | ok _ => exact answer_alike hg hk hend

private theorem cutFrom_covered {secret? secret?' : Option Bytes}
    (h : ∀ b c, secret? = some b → secret?' = some c → b.Alike c) {start stop label : Datum} {m n : Int}
    (hs : start.integer? = some m) (hn : stop.integer? = some n) (hl : label.isNone = false) :
    Covered SecretKey.Alike (SecretKey.cutFrom secret? start stop label)
      (SecretKey.cutFrom secret?' start stop label) := by
  have hv : ∀ x, Veils (SecretKey.cutFrom x start stop label) := by
    rintro (_ | secret) e he
    · cases he
      exact .inl rfl
    · exact SecretKey.slice_veils secret hs hn hl e he
  cases hx : secret? with
  | none => exact Covered.of_veils (hv none) (hv _) fun _ _ h => nomatch h
  | some b =>
    cases hy : secret?' with
    | none => exact Covered.of_veils (hv _) (hv none) fun _ _ _ h => nomatch h
    | some c => exact .of_matched (SecretKey.slice_alike (h b c hx hy) start stop label)

/-- Receivers tell nothing of their keys or of a message, as far as both open it or neither. -/
theorem receiver_converges (g : KeyAgreement) {key key' : PrivateKey} (hk : key.group = key'.group)
    {d e : Datum} (hd : d.Alike e) (start : Int) (stop : Option Int) (label : Datum) :
    ((receiver g (Suite.ofGroup key.group) key).decapsulate d (.int start) (Datum.ofBound stop)
      label).Converges R SecretKey.Alike
      ((receiver g (Suite.ofGroup key'.group) key').decapsulate e (.int start) (Datum.ofBound stop)
        label) := by
  have hh' : ∀ b first last, (decapsulate g (Suite.ofGroup key.group) key' b first last label :
      Act σ SecretKey) = liftM (SecretKey.cutFrom ((opened? g key' b).map secret) first last label) :=
    fun b first last => hk ▸ decapsulate_eq key' b first last label
  rw [← hk]
  refine Terms.receive_converges (grant_eq "DHKEMDecapsulator" (Suite.ofGroup key.group) _ _ label) rfl
    (fun b first last => SecretKey.cutFrom ((opened? g key b).map secret) first last label)
    (fun b first last => SecretKey.cutFrom ((opened? g key' b).map secret) first last label)
    (fun b first last => decapsulate_eq key b first last label) hh' ?_ hd
  intro b c w hw
  obtain ⟨rfl, hl⟩ := Terms.window_of_verdict hw
  have hsecret : ∀ x y, (opened? g key b).map secret = some x → (opened? g key' c).map secret = some y →
      x.Alike y := by
    intro x y hx hy
    obtain ⟨t, ht, rfl⟩ := Option.map_eq_some_iff.1 hx
    obtain ⟨t', ht', rfl⟩ := Option.map_eq_some_iff.1 hy
    simp only [Bytes.Alike, length_secret, group_of_opened? ht, group_of_opened? ht', hk]
  cases stop with
  | none => exact cutFrom_covered hsecret rfl rfl hl
  | some n => exact cutFrom_covered hsecret rfl rfl hl

end DhKem
end KeyCapsule
