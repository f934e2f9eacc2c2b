import JobPlane.Bytes

/-!
# Text as programs see it

The programs of jobs know no characters, only bytes. A raw text has one character for each byte, so that it can be compared with
and cut at ordinary characters, and is turned into bytes and back without loss.
-/

namespace JobPlane

/-- A text with one character for each byte. -/
abbrev Raw := List Char

namespace Raw

/-- The character for a byte, given as a number of which the lowest eight bits count. -/
def octet (n : Nat) : Char := Char.ofNat (n % 256)

/-- Bytes as raw text. -/
def ofBytes (bs : Bytes) : Raw := bs.map fun b => octet b.toNat

/-- The bytes of a raw text. -/
def toBytes (r : Raw) : Bytes := r.map fun c => UInt8.ofNat c.toNat

/-- The raw text of a text. -/
def ofText (s : String) : Raw := ofBytes (Bytes.ofText s)

/-- A number in decimal. -/
def ofNat (n : Nat) : Raw := (toString n).toList

/-- Texts with blanks between them. -/
def words (rs : List Raw) : Raw := [' '].intercalate rs

/-- Cut behind each of its line ends; the last line may lack one. -/
def lines : Raw → List Raw
  | [] => []
  | c :: cs =>
    if c = '\n' then ['\n'] :: lines cs
    else match lines cs with
      | [] => [[c]]
      | l :: ls => (c :: l) :: ls

/-- The digit a character is, up to base sixteen. -/
def digit? (c : Char) : Option Nat :=
  if '0' ≤ c && c ≤ '9' then some (c.toNat - 48)
  else if 'a' ≤ c && c ≤ 'f' then some (c.toNat - 87)
  else if 'A' ≤ c && c ≤ 'F' then some (c.toNat - 55)
  else none

/-- Whether a character is a digit in a base. -/
def isDigit (base : Nat) (c : Char) : Bool := (digit? c).any (· < base)

/-- The number that digits spell in a base. -/
def value (base : Nat) (ds : Raw) : Nat := ds.foldl (fun n c => n * base + (digit? c).getD 0) 0

/-- At most so many leading digits, and the rest. -/
def leading (base most : Nat) (cs : Raw) : Raw × Raw :=
  let ds := (cs.take most).takeWhile (isDigit base)
  (ds, cs.drop ds.length)

/-- Bytes are not changed on the way to raw text and back. -/
theorem toBytes_ofBytes (bs : Bytes) : toBytes (ofBytes bs) = bs := by
  have h : ∀ b : UInt8, UInt8.ofNat (octet b.toNat).toNat = b := fun b => by
    have hb : b.toNat < 256 := b.toNat_lt
    have hv : b.toNat.isValidChar := Or.inl (by omega)
    have hc : (Char.ofNat b.toNat).toNat = b.toNat := by
      rw [Char.ofNat, dif_pos hv]
      rfl
    rw [octet, Nat.mod_eq_of_lt hb, hc, UInt8.ofNat_toNat]
  induction bs with
  | nil => rfl
  | cons b bs ih =>
    simp only [ofBytes, toBytes, List.map_cons] at ih ⊢
    rw [h b, ih]

end Raw

end JobPlane
