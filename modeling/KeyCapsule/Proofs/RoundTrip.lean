import KeyCapsule.Proofs.Exchange

/-! Round trips. The sender and the receiver reach one transcript by different ways, so every window of
the receiver is cut from the secret that the sender's key was cut from. -/
namespace KeyCapsule.DhKem
open KeyAgreement Transcript

variable {σ τ : Type} {g : KeyAgreement}

def Recovers (dec : Decapsulator τ) (message : Datum) (secret : Bytes) : Prop :=
  ∀ (start stop : Int) (label : String) (s : τ), 0 ≤ start → start < stop → stop ≤ secret.length →
    ∃ k, (dec.decapsulate message (.int start) (.int stop) (.text label)).run s = ⟨.ok k, [], s⟩ ∧
      k.encoded = secret.cut start stop ∧ k.algorithm = .text label

def Sized (enc : Encapsulator σ) (dec : Decapsulator τ) (message secret : Nat) : Prop :=
  enc.toTerms.Fixed secret message ∧ dec.toTerms.Fixed secret message

private theorem recovers_of_opened? {key : PrivateKey} {message : Bytes} {t : Transcript}
    (h : opened? g key message = some t) :
    Recovers (receiver g (Suite.ofGroup key.group) key : Decapsulator τ) (.bytes message) t.secret := by
  intro start stop label s h₀ h₁ h₂
  rw [size_secret, group_of_opened? h] at h₂
  have hw : (((terms "DHKEMDecapsulator" (Suite.ofGroup key.group)).grant (.int start) (.int stop)
      (.text label)).run s).result = .ok (.int start, .int stop) :=
    grant_ok.2 ⟨rfl, ⟨h₀, h₁, h₂⟩, rfl⟩
  have hr := receiver_run g key message hw
  rw [h] at hr
  exact hr

/-- Whatever a sender draws and whichever window it serves, its key is the same window of a secret that
the receiver recovers from the message, and the receiver's own answer to the same request is that key. -/
theorem round_trip (hg : g.Lawful) {key : PrivateKey} {source : Source σ} {enc : Encapsulator σ}
    {dec : Decapsulator τ} (he : BoundSender g (g.publicOf key) source enc) (hd : BoundReceiver g key dec)
    {start stop : Int} {label : String} {s : σ} {r : Encapsulated}
    (h : ((enc.encapsulate (.int start) (.int stop) (.text label)).run s).result = .ok r) :
    ∃ message secret : Bytes, r.encapsulation = .bytes message ∧
      Sized enc dec message.length secret.length ∧
      (r.key.encoded.length : Int) = stop - start ∧ r.key.algorithm = .text label ∧
      r.key.encoded = secret.cut start stop ∧
      (∀ u, (dec.decapsulate r.encapsulation (.int start) (.int stop) (.text label)).run u =
        ⟨.ok r.key, [], u⟩) ∧ r.key.equals r.key = true ∧
      Recovers dec r.encapsulation secret := by
  cases he.eq_sender
  cases hd.eq_receiver
  obtain ⟨first, last, material, t, -, ht, hm, hw, hk⟩ := sender_ok h
  obtain ⟨-, ⟨h₀, h₁, h₂⟩, hw⟩ := grant_ok.1 hw
  cases hw
  have ho := opened?_of_sealed? hg ht
  have hgt := group_of_opened? ho
  have hs : (Suite.ofGroup key.group).secretSize = t.secret.length := by
    rw [size_secret, hgt]
  have hl : (Suite.ofGroup key.group).encapsulationSize = t.message.length := by
    rw [length_of_opened? ho, Suite.encapsulationSize_ofGroup]
  rw [hg.group_publicOf] at h₂
  have hnone : (Datum.text label).isNone = false := rfl
  obtain ⟨k, hk', hek, hak⟩ := SecretKey.slice_bytes h₀ h₁ (hs ▸ h₂) hnone
  cases hk'.symm.trans hk
  have hr : Recovers (receiver g (Suite.ofGroup key.group) key : Decapsulator τ) r.encapsulation
      t.secret := hm ▸ recovers_of_opened? ho
  refine ⟨t.message, t.secret, hm, ⟨?_, ?_⟩, ?_, hak, hek, fun u => ?_, ?_, hr⟩
  · rw [← hs, ← hl, ← hg.group_publicOf key]
    exact fixed_terms _ _
  · rw [← hs, ← hl]
    exact fixed_terms _ _
  · rw [hek]
    exact Bytes.length_cut h₀ (Int.le_of_lt h₁) (hs ▸ h₂)
  · obtain ⟨k', hrun, hek', hak'⟩ := hr start stop label u h₀ h₁ (hs ▸ h₂)
    rw [hrun, SecretKey.eq_of_parts (hek'.trans hek.symm) (hak'.trans hak.symm)]
  · simp [SecretKey.equals, hak]

/-- The standard agreement as far as one pair of keys needs it; every other pair is refused. -/
def confined (a b : PrivateKey) : KeyAgreement where
  publicOf := standard.publicOf
  exchange k q :=
    let pair := (standard.publicOf k, q)
    if pair = (standard.publicOf a, standard.publicOf b) ∨
        pair = (standard.publicOf b, standard.publicOf a) then
      standard.exchange a (standard.publicOf b)
    else none

theorem lawful_confined (a b : PrivateKey) : (confined a b).Lawful where
  group_publicOf := group_standardPublic
  exchange_comm j k _ := by
    simp only [confined, Prod.mk.injEq]
    by_cases h : standard.publicOf j = standard.publicOf a ∧ standard.publicOf k = standard.publicOf b
    · simp [h]
    · by_cases h' : standard.publicOf j = standard.publicOf b ∧ standard.publicOf k = standard.publicOf a
      · simp [h']
      · rw [if_neg (not_or.2 ⟨h, h'⟩), if_neg (not_or.2 ⟨fun hc => h' hc.symm, fun hc => h hc.symm⟩)]

def zeroKey : PrivateKey := .seed .x25519 ⟨Bytes.zeros 32, by decide⟩

/-- Zeros give an ephemeral key that this key and the other one agree on. -/
theorem agreed_zero :
    ∃ ephemeral, Suite.x25519.deriveKey (Bytes.zeros 32) = .ok ephemeral ∧
      (standard.exchange ephemeral (standard.publicOf zeroKey)).isSome = true ∧
      standard.exchange zeroKey (standard.publicOf ephemeral) =
        standard.exchange ephemeral (standard.publicOf zeroKey) := by
  have h : (match Suite.x25519.deriveKey (Bytes.zeros 32) with
      | .ok ephemeral => decide
          ((standard.exchange ephemeral (standard.publicOf zeroKey)).isSome = true ∧
            standard.exchange zeroKey (standard.publicOf ephemeral) =
              standard.exchange ephemeral (standard.publicOf zeroKey))
      | .error _ => false) = true := by decide +kernel
  cases hd : Suite.x25519.deriveKey (Bytes.zeros 32) with
  | error e =>
    rw [hd] at h
    cases h
  | ok ephemeral =>
    rw [hd] at h
    exact ⟨ephemeral, rfl, of_decide_eq_true h⟩

/-- One exchange on which the confined agreement answers like the standard one, to both sides. -/
theorem round_trip_zero :
    ∃ (ephemeral : PrivateKey) (enc dec : _) (r : Encapsulated),
      let g := confined ephemeral zeroKey
      let source : Source Unit := ⟨fun _ => pure (.bytes (Bytes.zeros 32))⟩
      g.Lawful ∧
        g.exchange ephemeral (g.publicOf zeroKey) =
          standard.exchange ephemeral (standard.publicOf zeroKey) ∧
        g.exchange zeroKey (g.publicOf ephemeral) =
          standard.exchange zeroKey (standard.publicOf ephemeral) ∧
        BoundSender g (g.publicOf zeroKey) source enc ∧ BoundReceiver (σ := Unit) g zeroKey dec ∧
        ((enc.encapsulate (.int 0) (.int 16) (.text "AES")).run ()).result = .ok r ∧
        (dec.decapsulate r.encapsulation (.int 0) (.int 16) (.text "AES")).run () = ⟨.ok r.key, [], ()⟩ ∧
        ∃ secret, r.key.encoded = secret.cut 0 16 ∧ Recovers dec r.encapsulation secret := by
  obtain ⟨ephemeral, hd, hx, hc⟩ := agreed_zero
  let g := confined ephemeral zeroKey
  let source : Source Unit := ⟨fun _ => pure (.bytes (Bytes.zeros 32))⟩
  have hg : g.Lawful := lawful_confined ephemeral zeroKey
  have hs : g.exchange ephemeral (g.publicOf zeroKey) =
      standard.exchange ephemeral (standard.publicOf zeroKey) := by
    simp [g, confined]
  have hr : g.exchange zeroKey (g.publicOf ephemeral) =
      standard.exchange zeroKey (standard.publicOf ephemeral) := by
    simp [g, confined, hc]
  obtain ⟨agreed, ha⟩ := Option.isSome_iff_exists.1 hx
  have ht : ∃ t, sealed? g (g.publicOf zeroKey) (Bytes.zeros 32) = some t :=
    ⟨_, sealed?_eq_some.2 ⟨ephemeral, hd, sealedBy?_eq_some.2 ⟨agreed, hs.trans ha, rfl⟩⟩⟩
  obtain ⟨t, ht⟩ := ht
  have he := boundSender g (g.publicOf zeroKey) source ()
  have hb := boundReceiver g zeroKey source ()
  have hsize : (0 : Int) ≤ 0 ∧ (0 : Int) < 16 ∧ 16 ≤ Suite.x25519.secretSize := by decide
  have hw : (((sender g Suite.x25519 (g.publicOf zeroKey) source).grant (.int 0) (.int 16)
      (.text "AES")).run ()).result = .ok (.int 0, .int 16) := grant_ok.2 ⟨rfl, hsize, rfl⟩
  obtain ⟨r, hrun⟩ := sender_of_sealed? rfl ht hw
  obtain ⟨_, secret, -, -, -, -, hk, hrec, -, hall⟩ := round_trip hg he hb hrun
  exact ⟨ephemeral, _, _, r, hg, hs, hr, he, hb, hrun, hrec (), secret, hk, hall⟩

end KeyCapsule.DhKem
