import FabricXSdk.Lib.Golang

/-!
# The wire format of protocol buffers

Varints, and fields that hold a varint or a length-delimited byte string.

## Implementation notes

Varints are not cut off at ten bytes, so that lengths need no bound. Fields of
fixed width and groups are not read.
-/

namespace Protobuf

open Golang

/-- Seven bits a byte, lowest first. The first argument bounds the number of bytes. -/
def putVarint : ℕ → ℕ → Bytes
  | 0, n => [Fin.ofNat 256 n]
  | fuel + 1, n =>
      if n < 128 then [Fin.ofNat 256 n]
      else Fin.ofNat 256 (n % 128 + 128) :: putVarint fuel (n / 128)

def varint (n : ℕ) : Bytes := putVarint n n

def readVarint : Bytes → Option (ℕ × Bytes)
  | [] => none
  | b :: rest =>
      if b.val < 128 then some (b.val, rest)
      else (readVarint rest).map fun p => (b.val - 128 + 128 * p.1, p.2)

theorem readVarint_putVarint (fuel : ℕ) {n : ℕ} (h : n ≤ fuel) (rest : Bytes) :
    readVarint (putVarint fuel n ++ rest) = some (n, rest) := by
  induction fuel generalizing n with
  | zero =>
      obtain rfl : n = 0 := by omega
      rfl
  | succ fuel ih =>
      rw [putVarint]
      by_cases hn : n < 128
      · have hval : (Fin.ofNat 256 n).val = n := Nat.mod_eq_of_lt (by omega)
        rw [if_pos hn, List.cons_append, readVarint, hval, if_pos hn, List.nil_append]
      -- the high bit is set, and the rest of the number comes behind
      · have hval : (Fin.ofNat 256 (n % 128 + 128)).val = n % 128 + 128 :=
          Nat.mod_eq_of_lt (by omega)
        have hlarge : ¬ n % 128 + 128 < 128 := by omega
        have hsum : n % 128 + 128 - 128 + 128 * (n / 128) = n := by omega
        have hle : n / 128 ≤ fuel := by omega
        rw [if_neg hn, List.cons_append, readVarint, hval, if_neg hlarge, ih hle, Option.map_some,
          hsum]

theorem readVarint_varint (n : ℕ) (rest : Bytes) :
    readVarint (varint n ++ rest) = some (n, rest) :=
  readVarint_putVarint n le_rfl rest

inductive Value
  | varint (n : ℕ)
  | len (b : Bytes)
  deriving DecidableEq, Repr

/-- A field number with one of its values. -/
abbrev Field := ℕ × Value

def encodeField : Field → Bytes
  | (number, .varint v) => varint (8 * number) ++ varint v
  | (number, .len b) => varint (8 * number + 2) ++ (varint b.length ++ b)

def readField (bs : Bytes) : Option (Field × Bytes) :=
  match readVarint bs with
  | none => none
  | some (tag, rest) =>
      match readVarint rest with
      | none => none
      | some (n, rest) =>
          if tag % 8 = 0 then some ((tag / 8, .varint n), rest)
          else if tag % 8 = 2 ∧ n ≤ rest.length then
            some ((tag / 8, .len (rest.take n)), rest.drop n)
          else none

def encodeFields (fs : List Field) : Bytes := fs.flatMap encodeField

/-- Read fields up to the end. The first argument bounds their number. -/
def decodeFields : ℕ → Bytes → Option (List Field)
  | _, [] => some []
  | 0, _ :: _ => none
  | fuel + 1, b :: bs =>
      match readField (b :: bs) with
      | none => none
      | some (f, rest) => (decodeFields fuel rest).map fun fs => f :: fs

theorem readField_encodeField (f : Field) (rest : Bytes) :
    readField (encodeField f ++ rest) = some (f, rest) := by
  obtain ⟨number, value⟩ := f
  cases value with
  | varint v =>
      have htag : 8 * number % 8 = 0 := by omega
      have hnumber : 8 * number / 8 = number := by omega
      simp only [encodeField, readField, List.append_assoc, readVarint_varint]
      rw [if_pos htag, hnumber]
  | len b =>
      have htag : ¬ (8 * number + 2) % 8 = 0 := by omega
      have htag' : (8 * number + 2) % 8 = 2 := by omega
      have hnumber : (8 * number + 2) / 8 = number := by omega
      have hlen : b.length ≤ (b ++ rest).length := by simp
      simp only [encodeField, readField, List.append_assoc, readVarint_varint]
      rw [if_neg htag, if_pos ⟨htag', hlen⟩, hnumber, List.take_left, List.drop_left]

theorem encodeField_ne_nil (f : Field) : encodeField f ≠ [] := by
  intro h
  have hread := readField_encodeField f []
  rw [h] at hread
  cases hread

theorem length_le_encodeFields (fs : List Field) : fs.length ≤ (encodeFields fs).length := by
  induction fs with
  | nil => exact Nat.zero_le _
  | cons f fs ih =>
      have hpos := List.length_pos_of_ne_nil (encodeField_ne_nil f)
      simp only [encodeFields, List.flatMap_cons, List.length_cons, List.length_append] at ih ⊢
      omega

theorem decodeFields_encodeFields (fs : List Field) {fuel : ℕ} (h : fs.length ≤ fuel) :
    decodeFields fuel (encodeFields fs) = some fs := by
  induction fs generalizing fuel with
  | nil => cases fuel <;> rfl
  | cons f fs ih =>
      cases fuel with
      | zero => simp at h
      | succ fuel =>
          have hread := readField_encodeField f (encodeFields fs)
          have htail := ih (Nat.le_of_succ_le_succ h)
          rw [encodeFields, List.flatMap_cons, ← encodeFields]
          -- `decodeFields` matches on the first byte, which an encoded field has
          obtain ⟨b, bs, hbs⟩ := List.exists_cons_of_ne_nil (encodeField_ne_nil f)
          rw [hbs, List.cons_append] at hread ⊢
          rw [decodeFields, hread]
          simp only [htail, Option.map_some]

end Protobuf
