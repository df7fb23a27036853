/-!
Byte strings and the natural numbers they denote, most significant byte first.
Main statements: a number written in a fixed width reads back modulo that width,
and text written as UTF-8 reads back as itself.
-/
namespace SecureShell

-- Powers of numbers are the core library's, also where powers in a monoid are imported.
@[default_instance high]
instance (priority := high) powNat : Pow Nat Nat := instPowNat

abbrev Bytes := List UInt8

/-- The count of binary digits of a number; zero has none. -/
def bitLength (n : Nat) : Nat := if n = 0 then 0 else n.log2 + 1

namespace Bytes

def toNat (bytes : Bytes) : Nat := bytes.foldl (fun n b => n * 256 + b.toNat) 0

def wideOnto : (width n : Nat) → (tail : Bytes) → Bytes
  | 0, _, tail => tail
  | width + 1, n, tail => wideOnto width (n / 256) (UInt8.ofNat n :: tail)

/-- The low `width` bytes of a number. -/
def wide (width n : Nat) : Bytes := wideOnto width n []

/-- The shortest byte string that denotes a number; zero is the empty one. -/
def ofNat (n : Nat) : Bytes := wide ((bitLength n + 7) / 8) n

/-- The shortest non-empty byte string that denotes a number; zero is one zero byte. -/
def ofNatNonempty (n : Nat) : Bytes := if n = 0 then [0] else ofNat n

def trimZeros (bytes : Bytes) : Bytes := bytes.dropWhile (· == 0)

/-- Four bytes, most significant first. -/
def ofUInt32 (value : UInt32) : Bytes := wide 4 value.toNat

/-- The word that four bytes denote; of a longer string the last four count. -/
def toUInt32 (bytes : Bytes) : UInt32 := UInt32.ofNat bytes.toNat

def xor (a b : Bytes) : Bytes := List.zipWith (· ^^^ ·) a b

def ofText (text : String) : Bytes := text.toByteArray.data.toList

def toText? (bytes : Bytes) : Option String := String.fromUTF8? ⟨⟨bytes⟩⟩

def piecesOnto (size : Nat) (done : List Bytes) (bytes : Bytes) : List Bytes :=
  if _ : size = 0 ∨ bytes = [] then done.reverse
  else piecesOnto size (bytes.take size :: done) (bytes.drop size)
  termination_by bytes.length
  decreasing_by
    have := List.length_pos_iff.2 fun none => ‹¬(size = 0 ∨ bytes = [])› (.inr none)
    simp only [List.length_drop]
    omega

/-- Cuts a byte string into pieces of `size` bytes; the last one may be shorter. -/
def pieces (size : Nat) (bytes : Bytes) : List Bytes := piecesOnto size [] bytes

def hexDigit (n : Nat) : Char := "0123456789abcdef".toList.getD n '0'

/-- Lower-case hexadecimal, two digits a byte. -/
def hex (bytes : Bytes) : String :=
  String.ofList (bytes.flatMap fun b => [hexDigit (b.toNat / 16), hexDigit (b.toNat % 16)])

theorem toText?_ofText (text : String) : toText? (ofText text) = some text := by
  have h : ByteArray.mk (Array.mk (ofText text)) = text.toByteArray := by
    simp [ofText]
  simp only [toText?, h, String.fromUTF8?]
  rw [dif_pos text.isValidUTF8]
  rfl

theorem wideOnto_append (width n : Nat) (tail : Bytes) :
    wideOnto width n tail = wide width n ++ tail := by
  induction width generalizing n tail with
  | zero => rfl
  | succ w ih =>
    rw [wide, wideOnto, wideOnto, ih, ih (n / 256) [UInt8.ofNat n]]
    simp

theorem wide_succ (width n : Nat) :
    wide (width + 1) n = wide width (n / 256) ++ [UInt8.ofNat n] := by
  rw [wide, wideOnto, wideOnto_append]

@[simp] theorem length_wide (width n : Nat) : (wide width n).length = width := by
  induction width generalizing n with
  | zero => rfl
  | succ w ih => simp [wide_succ, ih]

theorem toNat_concat (bytes : Bytes) (b : UInt8) :
    toNat (bytes ++ [b]) = toNat bytes * 256 + b.toNat := by
  simp [toNat, List.foldl_append]

theorem foldl_toNat (bytes : Bytes) (acc : Nat) :
    bytes.foldl (fun n b => n * 256 + b.toNat) acc = acc * 256 ^ bytes.length + toNat bytes := by
  induction bytes generalizing acc with
  | nil => simp [toNat]
  | cons b rest ih =>
    simp only [List.foldl_cons, toNat, List.length_cons]
    rw [ih, ih (0 * 256 + b.toNat), Nat.pow_succ, Nat.add_mul, Nat.mul_assoc,
      Nat.mul_comm (256 ^ rest.length) 256, Nat.zero_mul, Nat.zero_add, Nat.add_assoc]

theorem toNat_append (a b : Bytes) : toNat (a ++ b) = toNat a * 256 ^ b.length + toNat b := by
  rw [toNat, List.foldl_append, foldl_toNat]
  rfl

theorem toNat_wide (width n : Nat) : toNat (wide width n) = n % 256 ^ width := by
  induction width generalizing n with
  | zero => simp [wide, wideOnto, toNat, Nat.mod_one]
  | succ w ih =>
    rw [wide_succ, toNat_concat, ih, Nat.pow_succ, Nat.mul_comm (256 ^ w), Nat.mod_mul]
    simp only [UInt8.toNat_ofNat']
    omega

theorem toUInt32_ofUInt32 (value : UInt32) : toUInt32 (ofUInt32 value) = value := by
  have h := value.toNat_lt
  simp only [toUInt32, ofUInt32, toNat_wide]
  rw [Nat.mod_eq_of_lt (by simpa using h)]
  simp

end Bytes

end SecureShell
