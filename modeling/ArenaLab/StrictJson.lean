import ArenaLab.JsonReader
import Mathlib.Tactic.Common

/-! The two strict JSON readers: `gateway_protocol.py` checks the parsed tree,
`gateway_process.gd` scans the text before it is parsed. -/

namespace ArenaLab

open JsonText

/-- The UTF-16 code units of a character. -/
def codeUnits (c : Char) : List ℕ :=
  if c.toNat < 0x10000 then [c.toNat]
  else [0xd800 + (c.toNat - 0x10000) / 0x400, 0xdc00 + (c.toNat - 0x10000) % 0x400]

def hexDigitValue (c : Char) : ℕ :=
  if isDigit c then c.toNat - '0'.toNat
  else if 'a' ≤ c then c.toNat - 'a'.toNat + 10 else c.toNat - 'A'.toNat + 10

def escapeValue (c : Char) : ℕ :=
  match c with
  | 'b' => 8
  | 'f' => 12
  | 'n' => 10
  | 'r' => 13
  | 't' => 9
  | c => c.toNat

/-- The string a body stands for, in code units. -/
def unescape : List Char → List ℕ
  | '\\' :: 'u' :: a :: b :: c :: d :: s =>
    (((hexDigitValue a * 16 + hexDigitValue b) * 16 + hexDigitValue c) * 16 + hexDigitValue d) :: unescape s
  | '\\' :: c :: s => escapeValue c :: unescape s
  | c :: s => codeUnits c ++ unescape s
  | [] => []

/-- A string in code units. -/
def codes (s : String) : List ℕ := s.toList.flatMap codeUnits

/-- A number with a fraction or an exponent; the decoders make it a float. -/
def isFloat (n : List Char) : Bool := n.any (fun c => c = '.' || c = 'e' || c = 'E')

namespace GatewayProtocol

/-- What `json.loads` takes for a constant. -/
def constants : List (List Char) := ["NaN".toList, "Infinity".toList, "-Infinity".toList]

/-- `pairs`, the hook for one object: no key is in `result` already. -/
def pairs (result : List (List ℕ)) : List (List Char × Value) → Bool
  | [] => true
  | (key, _) :: items => !result.contains (unescape key) && pairs (unescape key :: result) items

/-- The hooks of `json.loads`; `invalid` raises at every constant. -/
def hook : Value → Bool
  | .word w => !constants.contains w
  | .object items => pairs [] items
  | _ => true

def loads (text : List Char) : Option Value :=
  (parse (words ++ constants) text).filter (fun t => t.holds hook)

mutual

/-- `depth`: whether it returns. -/
def depth (level : ℕ) : Value → Bool
  | .array items => level ≤ 3 && depthItems (level + 1) items
  | .object members => level ≤ 3 && depthValues (level + 1) members
  | .number n => level ≤ 4 && !isFloat n
  | _ => level ≤ 4

def depthItems (level : ℕ) : List Value → Bool
  | [] => true
  | item :: items => depth level item && depthItems level items

def depthValues (level : ℕ) : List (List Char × Value) → Bool
  | [] => true
  | (_, item) :: members => depth level item && depthValues level members

end

/-- `strict_json`; `none` is the ValueError. -/
def strictJson (data : List UInt8) : Option Value :=
  if 1 ≤ data.length ∧ data.length ≤ 4096 then
    match (ByteArray.mk data.toArray).utf8Decode? with
    | none => none
    | some text => (loads text.toList).filter (depth 0)
  else none

end GatewayProtocol

namespace GatewayProcess

/-- The inner loop over a string that has just been opened: what it passes, and the text
after the closing quote. A backslash skips one character more. -/
def skipString : List Char → Option (List Char × List Char)
  | [] => none
  | '"' :: s => some ([], s)
  | ['\\'] => none
  | '\\' :: c :: s => (skipString s).map (fun x => ('\\' :: c :: x.1, x.2))
  | c :: s => (skipString s).map (fun x => (c :: x.1, x.2))

/-- The inner loop over a number after its first character. -/
def skipNumber : List Char → Option (List Char)
  | [] => some []
  | c :: s =>
    if "0123456789.eE+-".toList.contains c then
      if ".eE+".toList.contains c then none else skipNumber s
    else some (c :: s)

/-- One round of the outer loop, from the stack and the text after the character: `none` where
it returns null. -/
def scanStep (stack : List (List (List ℕ))) (c : Char) (s : List Char) :
    Option (List (List (List ℕ)) × List Char) :=
  if c = '\x7b' ∨ c = '[' then
    if stack.length + 1 > 4 then none else some ([] :: stack, s)
  else if c = '\x7d' ∨ c = ']' then
    match stack with
    | [] => none
    | _ :: stack => some (stack, s)
  else if c = '"' then
    match skipString s with
    | none => none
    | some (body, r) =>
      match skipWs r with
      | ':' :: _ =>
        match stack, parse words ('"' :: (body ++ ['"'])) with
        | keys :: stack, some (.string key) =>
          if keys.contains (unescape key) then none else some ((unescape key :: keys) :: stack, r)
        | _, _ => none
      | _ => some (stack, r)
  else if "-0123456789".toList.contains c then
    match skipNumber s with
    | none => none
    | some r => some (stack, r)
  else some (stack, s)

/-- The outer loop: `none` while it still runs, `some false` where it returns null. -/
def scan : ℕ → List (List (List ℕ)) → List Char → Option Bool
  | _, _, [] => some true
  | 0, _, _ :: _ => none
  | n + 1, stack, c :: s =>
    match scanStep stack c s with
    | none => some false
    | some (stack, r) => scan n stack r

/-- `parser.data`; the text `null` gives the value that also stands for a refusal. -/
def data : Value → Option Value
  | .word w => if w = "null".toList then none else some (.word w)
  | t => some t

/-- `strict_json`; `none` is null. -/
def strictJson (data : List UInt8) : Option Value :=
  if data = [] ∨ data.length > 4096 then none
  else if data.any (fun byte => byte > 127) then none
  else
    let text := (data.takeWhile (fun byte => byte ≠ 0)).map (fun byte => Char.ofNat byte.toNat)
    if text.length ≠ data.length then none
    else
      match scan text.length [] text with
      | some true => (parse words text).bind GatewayProcess.data
      | _ => none

end GatewayProcess

end ArenaLab
