import KeyCapsule.Proofs.Admission

/-! Keys cut from a secret. Inside the secret every window that is not empty gives a key, so a receiver
with a secret for a message has a key for every request that it grants. -/
namespace KeyCapsule

def Bytes.cut (b : Bytes) (start stop : Int) : Bytes := (b.take stop.toNat).drop start.toNat

theorem Bytes.length_cut {b : Bytes} {start stop : Int} (h₀ : 0 ≤ start) (h₁ : start ≤ stop)
    (h₂ : stop ≤ b.length) : ((b.cut start stop).length : Int) = stop - start := by
  simp only [cut, List.length_drop, List.length_take]
  omega

@[simp] theorem Bytes.cut_whole (b : Bytes) : b.cut 0 b.length = b := by
  simp [cut]

/-- An integer is a bound of a slice, whatever it is written as. -/
theorem Datum.bound_integer {d : Datum} {n : Int} (h : d.integer? = some n) : d.bound = .ok (some n) := by
  cases d with
  | bool b => exact congrArg Except.ok h
  | int n => exact congrArg Except.ok h
  | _ => cases h

namespace SecretKey

/-- A key is its bytes and its label. -/
theorem eq_of_parts {j k : SecretKey} (he : j.encoded = k.encoded) (ha : j.algorithm = k.algorithm) :
    j = k := by
  cases j
  cases k
  cases he
  cases ha
  rfl

/-- A window that is neither empty nor outside the secret gives the key of its bytes. -/
theorem slice_bytes {b : Bytes} {start stop : Int} (h₀ : 0 ≤ start) (h₁ : start < stop)
    (h₂ : stop ≤ b.length) {label : Datum} (hl : label.isNone = false) :
    ∃ k, slice (.bytes b) (.int start) (.int stop) label = .ok k ∧
      k.encoded = b.cut start stop ∧ k.algorithm = label := by
  have hw : (Datum.bytes b).slice (.int start) (.int stop) = .ok (.bytes (b.cut start stop)) := by
    have h : (Datum.bytes b).slice (.int start.toNat) (.int stop.toNat) = .ok (.bytes (b.cut start stop)) :=
      Datum.slice_bytes_of_le (by omega) (by omega)
    rwa [Int.toNat_of_nonneg h₀, Int.toNat_of_nonneg (by omega)] at h
  have hn : b.cut start stop ≠ [] := by
    have h := Bytes.length_cut h₀ (Int.le_of_lt h₁) h₂
    intro he
    rw [he, List.length_nil] at h
    omega
  have hm := make_bytes hn (Datum.ne_none_of_isNone hl)
  refine ⟨⟨b.cut start stop, label, hn⟩, ?_, rfl, rfl⟩
  simp only [slice, hw, ok_bind, Datum.toBytes_bytes, hm]

def cutFrom (secret? : Option Bytes) (start stop label : Datum) : Except Fault SecretKey :=
  match secret? with
  | some secret => slice (.bytes secret) start stop label
  | none => .error .undecapsulated

@[simp] theorem cutFrom_some (secret : Bytes) (start stop label : Datum) :
    cutFrom (some secret) start stop label = slice (.bytes secret) start stop label := rfl

end SecretKey

/-- A side that takes its keys from the secret of a message answers a granted request in one of two
ways. Both the length and the algorithm may turn the message down, and neither leaves a trace of its
own. -/
theorem Terms.receive_cut {σ : Type} {t : Terms σ} {size length : Int} (ht : t.Fixed size length)
    (hq : t.Quiet) {hook : Bytes → Datum → Datum → Datum → Act σ SecretKey}
    {secret? : Bytes → Option Bytes}
    (hh : ∀ b start stop label,
      hook b start stop label = liftM (SecretKey.cutFrom (secret? b) start stop label))
    (hs : ∀ b secret, secret? b = some secret → (secret.length : Int) = size) (b : Bytes)
    {start stop : Int} (hlt : start < stop) {label : Datum} {s : σ} {w : Datum × Datum}
    (hw : ((t.grant (.int start) (.int stop) label).run s).result = .ok w) :
    match (if (b.length : Int) = length then secret? b else none) with
    | some secret => ∃ k,
        (t.receive hook (.bytes b) (.int start) (.int stop) label).run s = ⟨.ok k, [], s⟩ ∧
          k.encoded = secret.cut start stop ∧ k.algorithm = label
    | none => (t.receive hook (.bytes b) (.int start) (.int stop) label).run s =
        ⟨.error .undecapsulated, [t.failure], s⟩ := by
  obtain ⟨hl, hin, -, rfl⟩ := (Terms.grant_int ht.secretSize).1 hw
  rw [Terms.receive_bytes ht, Terms.grant_eq_pure ht.secretSize hq hw, Act.pure_bind]
  -- what is left are the length and the algorithm, and both end in the same refusal
  by_cases hb : (b.length : Int) = length
  · simp only [if_pos hb]
    cases hc : secret? b with
    | none =>
      rw [Terms.conceal_run, hh, hc]
      rfl
    | some secret =>
      obtain ⟨k, hk, he, ha⟩ := SecretKey.slice_bytes hin.1 hlt (hs b secret hc ▸ hin.2.2) hl
      rw [Terms.conceal_run, hh, hc, SecretKey.cutFrom_some, hk]
      exact ⟨k, rfl, he, ha⟩
  · simp only [if_neg hb]
    rfl

end KeyCapsule
