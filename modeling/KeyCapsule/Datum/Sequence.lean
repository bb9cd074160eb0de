import KeyCapsule.Datum.Order

/-! Values as sequences: their length, their slices, and the byte string that a value stands for. A
slice counts negative bounds from the end and is cut to the sequence. -/
namespace KeyCapsule.Datum

def size : Datum → Except Fault Nat
  | text s => .ok s.length
  | bytes b => .ok b.length
  | buffer b => .ok b.length
  | list items => .ok items.length
  | object _ (.known n) => .ok n
  | object _ .lost => .error Fault.noAttribute
  | other => .error (.primitive .type ("object of type '" ++ other.typeName ++ "' has no len()"))

def byte (x : Datum) : Except Fault UInt8 :=
  match x.integer? with
  | some n =>
    if 0 ≤ n ∧ n < 256 then .ok (UInt8.ofNat n.toNat)
    else .error (.primitive .value "bytes must be in range(0, 256)")
  | Option.none =>
    .error (.primitive .type ("'" ++ x.typeName ++ "' object cannot be interpreted as an integer"))

def isWord (n : Int) : Bool := -0x8000000000000000 ≤ n && n < 0x8000000000000000

def memoryLimit : Nat := 0x40000000

def repetitions (n : Int) : Except Fault Nat :=
  if !isWord n then .error Fault.outOfWord
  else if (memoryLimit : Int) < n then .error Fault.outOfMemory
  else .ok n.toNat

/-- The length of a new byte string. It must not be negative, and with the 33 bytes that a string
takes up beside its contents it must still fit a machine word. -/
def newLength (n : Int) : Except Fault Nat :=
  if !isWord n then .error Fault.outOfWord
  else if n < 0 then .error (.primitive .value "negative count")
  else if !isWord (n + 33) then .error Fault.outOfWord
  else repetitions n

/-- The byte string with these bytes, or a number of zeros. -/
def toBytes : Datum → Except Fault Bytes
  | bytes b => .ok b
  | buffer b => .ok b
  | list items => items.mapM byte
  | int n => (newLength n).map Bytes.zeros
  | bool b => .ok (Bytes.zeros (if b then 1 else 0))
  | text _ => .error (.primitive .type "string argument without an encoding")
  | other => .error (.primitive .type ("cannot convert '" ++ other.typeName ++ "' object to bytes"))

/-- The bytes of a new buffer. One too long for memory is refused as such, and other words are found for what
makes no bytes. -/
def toBuffer (x : Datum) : Except Fault Bytes :=
  match x, x.toBytes with
  | _, .ok b => .ok b
  | list _, .error e =>
    .error (if e.isA .value then .primitive .value "byte must be in range(0, 256)" else e)
  | int n, .error e => .error (if 0 ≤ n && isWord n then Fault.outOfMemory else e)
  | text _, .error e => .error e
  | other, .error _ =>
    .error (.primitive .type ("cannot convert '" ++ other.typeName ++ "' object to bytearray"))

def joinable (x : Datum) : Except Fault Bytes :=
  match x.bytesLike? with
  | some b => .ok b
  | Option.none => .error Fault.typeMismatch

def bound : Datum → Except Fault (Option Int)
  | none => .ok Option.none
  | x => match x.integer? with
    | some n => .ok (some n)
    | Option.none => .error Fault.typeMismatch

def place (length : Nat) (n : Int) : Nat :=
  min length (if n < 0 then n + length else n).toNat

def window {α : Type} (items : List α) (start stop : Option Int) : List α :=
  let first := (start.map (place items.length)).getD 0
  let last := (stop.map (place items.length)).getD items.length
  (items.take last).drop first

def slice (x start stop : Datum) : Except Fault Datum := do
  match x with
  | text s => return text (String.ofList (window s.toList (← start.bound) (← stop.bound)))
  | bytes b => return bytes (window b (← start.bound) (← stop.bound))
  | buffer b => return buffer (window b (← start.bound) (← stop.bound))
  | list items => return list (window items (← start.bound) (← stop.bound))
  | _ => throw Fault.typeMismatch

@[simp] theorem size_bytes (b : Bytes) : (bytes b).size = .ok b.length := rfl

@[simp] theorem toBytes_bytes (b : Bytes) : (bytes b).toBytes = .ok b := rfl

@[simp] theorem joinable_bytes (b : Bytes) : (bytes b).joinable = .ok b := rfl

@[simp] theorem bound_int (n : Int) : (int n).bound = .ok (some n) := rfl

private theorem place_of_le {length n : Nat} (h : n ≤ length) : place length n = n := by
  simp only [place]
  omega

/-- Inside the sequence a slice is what its bounds say. -/
theorem slice_bytes_of_le {b : Bytes} {start stop : Nat} (h₁ : start ≤ stop)
    (h₂ : stop ≤ b.length) :
    (bytes b).slice (int start) (int stop) = .ok (bytes ((b.take stop).drop start)) := by
  have hs : place b.length (start : Int) = start := place_of_le (by omega)
  have he : place b.length (stop : Int) = stop := place_of_le h₂
  show Except.ok (bytes (window b (some (start : Int)) (some (stop : Int)))) = _
  simp only [window, Option.map_some, Option.getD_some, hs, he]

end KeyCapsule.Datum
