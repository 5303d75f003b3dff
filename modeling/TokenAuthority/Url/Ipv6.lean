import TokenAuthority.Text.Hex
import TokenAuthority.Text.Integer
import TokenAuthority.Text.Split

/-!
# Addresses of version six

An address has eight groups of sixteen bits. In its text one run of groups that are zero may be left
out, and the last two groups may be given as an address of version four.
-/

namespace TokenAuthority.Ipv6

/-! ### Reading -/

def group? (digits : List Char) : Option Nat :=
  if 1 ≤ digits.length ∧ digits.length ≤ 4 then
    digits.foldlM (fun n c => (Hex.digit? c).map (16 * n + ·)) 0
  else none

/-- One of the four parts of an address of version four: up to 255, without zeros in front. -/
def part? (digits : List Char) : Option Nat :=
  if digits.isEmpty ∨ (digits.head? = some '0' ∧ 1 < digits.length) then none
  else
    (digits.foldlM (fun n c => (Integer.digit? c).map (10 * n + ·)) 0).filter (· ≤ 255)

/-- The last group, or the last two where they are an address of version four. -/
def lastGroups? (text : List Char) : Option (List Nat) :=
  match Split.on '.' text with
  | [_] => (group? text).map ([·])
  | [a, b, c, d] => do
    return [256 * (← part? a) + (← part? b), 256 * (← part? c) + (← part? d)]
  | _ => none

/-- The groups of a text without a gap, of which the last may be of version four if `mixed`. -/
def groups? (mixed : Bool) : List (List Char) → Option (List Nat)
  | [] => some []
  | [last] => if mixed then lastGroups? last else (group? last).map ([·])
  | first :: rest => do return (← group? first) :: (← groups? mixed rest)

/-- The groups on one side of a gap. -/
def side? (mixed : Bool) (text : List Char) : Option (List Nat) :=
  if text.isEmpty then some [] else groups? mixed (Split.on ':' text)

/-- The texts before and after the first gap, if there is one. -/
def atGap? : List Char → Option (List Char × List Char)
  | ':' :: ':' :: rest => some ([], rest)
  | c :: rest => (atGap? rest).map fun (before, after) => (c :: before, after)
  | [] => none

/-- Reads an address. A gap stands for at least one group. -/
def parse? (text : List Char) : Option (List Nat) :=
  match atGap? text with
  | none => do
    let groups ← groups? true (Split.on ':' text)
    if groups.length = 8 then return groups else none
  | some (before, after) => do
    let front ← side? false before
    let back ← side? true after
    if front.length + back.length ≤ 7 then
      return front ++ List.replicate (8 - front.length - back.length) 0 ++ back
    else none

/-! ### Writing -/

def joined (groups : List Nat) : String :=
  ":".intercalate (groups.map fun n => String.ofList (Nat.toDigits 16 n))

/-- How many zeros groups begin with. -/
def zeros (groups : List Nat) : Nat := (groups.takeWhile (· = 0)).length

/-- Where the longest run of zeros begins, and its length; of several, the first. -/
def longestRun (groups : List Nat) : Nat × Nat :=
  let runs := (List.range groups.length).map fun i => (i, zeros (groups.drop i))
  runs.foldl (fun best run => if best.2 < run.2 then run else best) (0, 0)

/-- The text of an address: a run of two zeros or more is left out, and an address that stands for one
of version four shows it. -/
def text (groups : List Nat) : String :=
  match groups with
  | [0, 0, 0, 0, 0, 0xffff, a, b] =>
    "::ffff:" ++ ".".intercalate ([a / 256, a % 256, b / 256, b % 256].map toString)
  | _ =>
    let (start, length) := longestRun groups
    if 1 < length then joined (groups.take start) ++ "::" ++ joined (groups.drop (start + length))
    else joined groups

end TokenAuthority.Ipv6
