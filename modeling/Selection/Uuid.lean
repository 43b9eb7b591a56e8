import Selection.Text.Hex

/-! # Uuids

A uuid is 128 bits, written as 32 small hexadecimal digits in groups of 8, 4, 4, 4 and 12. It is
read in that form, alone, in braces or after `urn:uuid:`, and as 32 digits without hyphens; capital
digits are read too.
-/

namespace Selection

/-- A universally unique identifier. -/
structure Uuid where
  bits : BitVec 128
deriving DecidableEq

namespace Uuid

/-- The order of the bits, the first the most significant. -/
protected def compare (x y : Uuid) : Ordering :=
  Ord.compare x.bits.toNat y.bits.toNat

def text (u : Uuid) : String :=
  let ds := Hex.lastDigits 32 u.bits.toNat
  let group (start length : Nat) := String.ofList ((ds.drop start).take length)
  group 0 8 ++ "-" ++ group 8 4 ++ "-" ++ group 12 4 ++ "-" ++ group 16 4 ++ "-" ++ group 20 12

/-- Reads 32 hexadecimal digits. -/
def readDigits? (cs : List Char) : Option Uuid :=
  if cs.length = 32 then do
    let values ← cs.mapM Hex.value?
    return ⟨.ofNat 128 (values.foldl (fun n v => 16 * n + v) 0)⟩
  else none

/-- Reads five groups of hexadecimal digits with a hyphen before all but the first. -/
def readGroups? (cs : List Char) : Option Uuid :=
  let group (start length : Nat) := (cs.drop start).take length
  if cs.length = 36 ∧ [8, 13, 18, 23].all (fun i => cs[i]? == some '-') then
    readDigits? (group 0 8 ++ group 9 4 ++ group 14 4 ++ group 19 4 ++ group 24 12)
  else none

/-- Reads a uuid in any of its forms. -/
def read? (cs : List Char) : Option Uuid :=
  match cs with
  | '\x7b' :: rest => if rest.getLast? = some '\x7d' then readGroups? rest.dropLast else none
  | _ =>
    if cs.length = 32 then readDigits? cs
    else if "urn:uuid:".toList.isPrefixOf cs then readGroups? (cs.drop 9)
    else readGroups? cs

end Uuid

end Selection
