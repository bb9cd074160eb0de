import KeyCapsule.Key

/-! Diffie-Hellman agreement. The protocols above need only two operations, so they take them as one
value; the standard one computes them on the curves. -/
namespace KeyCapsule

structure KeyAgreement where
  publicOf : PrivateKey → PublicKey
  /-- The agreed value of a private key and another public key of its group; `none` when the public
  key is refused. -/
  exchange : PrivateKey → PublicKey → Option Bytes

namespace KeyAgreement

/-- A nonzero multiple below the order is never the point at infinity, so the fallback to the
generator is not taken. -/
def standardPublic : PrivateKey → PublicKey
  | .scalar c k => .point c ((c.multiply k.val c.generator).getD c.generator)
  | .seed l s => .coordinate l
      ⟨l.encode (l.multiply (l.multiplier s.val) l.base), l.length_encode _⟩

def standardExchange : PrivateKey → PublicKey → Option Bytes
  | .scalar c k, .point d q =>
    if h : d = c then (c.multiply k.val (h ▸ q)).map fun r => Bytes.ofNatBE c.width r.x else none
  | .seed l s, .coordinate m u =>
    if m = l then
      let agreed := l.multiply (l.multiplier s.val) (l.coordinate u.val)
      if agreed = 0 then none else some (l.encode agreed)
    else none
  | _, _ => none

def standard : KeyAgreement := ⟨standardPublic, standardExchange⟩

/-- What agreement promises: a public key lives in its private key's group, and both sides of a
pair reach the same value or are both refused. -/
structure Lawful (g : KeyAgreement) : Prop where
  group_publicOf : ∀ k, (g.publicOf k).group = k.group
  exchange_comm : ∀ a b, a.group = b.group → g.exchange a (g.publicOf b) = g.exchange b (g.publicOf a)

theorem group_standardPublic (k : PrivateKey) : (standard.publicOf k).group = k.group := by
  cases k <;> rfl

end KeyAgreement

end KeyCapsule
