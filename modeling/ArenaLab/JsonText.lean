import Mathlib.Data.List.Basic
import Mathlib.Data.Nat.Notation
import Mathlib.Tactic.Common

/-! JSON texts as RFC 8259 has them: the grammar over characters, and a reader
that accepts exactly what the grammar derives. -/

namespace JsonText

/-- What a text says; numbers and strings are kept as they are written. -/
inductive Value
  | word (text : List Char)
  | number (text : List Char)
  | string (body : List Char)
  | array (items : List Value)
  | object (members : List (List Char × Value))

mutual

def Value.height : Value → ℕ
  | .array ts => heightItems ts + 1
  | .object ms => heightMembers ms + 1
  | _ => 0

def heightItems : List Value → ℕ
  | [] => 0
  | t :: ts => max t.height (heightItems ts)

def heightMembers : List (List Char × Value) → ℕ
  | [] => 0
  | (_, t) :: ms => max t.height (heightMembers ms)

end

mutual

/-- A test at every node. -/
def Value.holds (p : Value → Bool) : Value → Bool
  | .word w => p (.word w)
  | .number n => p (.number n)
  | .string b => p (.string b)
  | .array ts => p (.array ts) && holdsItems p ts
  | .object ms => p (.object ms) && holdsMembers p ms

def holdsItems (p : Value → Bool) : List Value → Bool
  | [] => true
  | t :: ts => t.holds p && holdsItems p ts

def holdsMembers (p : Value → Bool) : List (List Char × Value) → Bool
  | [] => true
  | (_, t) :: ms => t.holds p && holdsMembers p ms

end

def isWs (c : Char) : Bool := c = ' ' || c = '\t' || c = '\n' || c = '\r'

def isDigit (c : Char) : Bool := c ∈ "0123456789".toList

def isHexDigit (c : Char) : Bool := c ∈ "0123456789abcdefABCDEF".toList

/-- The literal names of RFC 8259. A reader may know more of them, so the grammar takes the list. -/
def words : List (List Char) := ["true".toList, "false".toList, "null".toList]

def escapes : List Char := "\"\\/bfnrt".toList

def IsBlank (w : List Char) : Prop := ∀ c ∈ w, isWs c = true

def IsDigits (n : List Char) : Prop := n ≠ [] ∧ ∀ c ∈ n, isDigit c = true

def IsInt (n : List Char) : Prop := IsDigits n ∧ (n.head? = some '0' → n = ['0'])

def IsFrac (n : List Char) : Prop := ∃ ds, n = '.' :: ds ∧ IsDigits ds

def IsExp (n : List Char) : Prop :=
  ∃ e sign ds, n = e :: (sign ++ ds) ∧ (e = 'e' ∨ e = 'E') ∧ sign ∈ [[], ['+'], ['-']] ∧ IsDigits ds

def IsNumber (n : List Char) : Prop :=
  ∃ minus int frac exp, n = minus ++ (int ++ (frac ++ exp)) ∧ minus ∈ [[], ['-']] ∧ IsInt int ∧
    (frac = [] ∨ IsFrac frac) ∧ (exp = [] ∨ IsExp exp)

/-- What may stand between the quotes of a string. -/
inductive IsBody : List Char → Prop
  | nil : IsBody []
  | plain {c : Char} {s : List Char} (hc : 0x20 ≤ c.toNat) (hquote : c ≠ '"') (hback : c ≠ '\\') :
      IsBody s → IsBody (c :: s)
  | escape {c : Char} {s : List Char} (hc : c ∈ escapes) : IsBody s → IsBody ('\\' :: c :: s)
  | unicode {a b c d : Char} {s : List Char} (h : ∀ x ∈ [a, b, c, d], isHexDigit x = true) :
      IsBody s → IsBody ('\\' :: 'u' :: a :: b :: c :: d :: s)

/-- The nonterminals of the grammar with what they stand for. -/
inductive Piece
  | value (t : Value)
  | element (t : Value)
  | elements (ts : List Value)
  | member (m : List Char × Value)
  | members (ms : List (List Char × Value))

def Piece.holds (p : Value → Bool) : Piece → Bool
  | .value t => t.holds p
  | .element t => t.holds p
  | .elements ts => holdsItems p ts
  | .member m => m.2.holds p
  | .members ms => holdsMembers p ms

section Grammar

variable (ws : List (List Char))

inductive Derives : Piece → List Char → Prop
  | word {w : List Char} (h : w ∈ ws) : Derives (.value (.word w)) w
  | number {n : List Char} (h : IsNumber n) : Derives (.value (.number n)) n
  | string {b : List Char} (h : IsBody b) : Derives (.value (.string b)) ('"' :: (b ++ ['"']))
  | emptyArray {w : List Char} (h : IsBlank w) : Derives (.value (.array [])) ('[' :: (w ++ [']']))
  | array {ts : List Value} {s : List Char} (h : Derives (.elements ts) s) :
      Derives (.value (.array ts)) ('[' :: (s ++ [']']))
  | emptyObject {w : List Char} (h : IsBlank w) :
      Derives (.value (.object [])) ('\x7b' :: (w ++ ['\x7d']))
  | object {ms : List (List Char × Value)} {s : List Char} (h : Derives (.members ms) s) :
      Derives (.value (.object ms)) ('\x7b' :: (s ++ ['\x7d']))
  | element {t : Value} {w s w' : List Char} (hw : IsBlank w) (h : Derives (.value t) s) (hw' : IsBlank w') :
      Derives (.element t) (w ++ (s ++ w'))
  | lastElement {t : Value} {s : List Char} (h : Derives (.element t) s) : Derives (.elements [t]) s
  | moreElements {t : Value} {ts : List Value} {s s' : List Char} (h : Derives (.element t) s)
      (h' : Derives (.elements ts) s') : Derives (.elements (t :: ts)) (s ++ ',' :: s')
  | member {b w w' s : List Char} {t : Value} (hw : IsBlank w) (hb : IsBody b) (hw' : IsBlank w')
      (h : Derives (.element t) s) : Derives (.member (b, t)) (w ++ '"' :: (b ++ '"' :: (w' ++ ':' :: s)))
  | lastMember {m : List Char × Value} {s : List Char} (h : Derives (.member m) s) : Derives (.members [m]) s
  | moreMembers {m : List Char × Value} {ms : List (List Char × Value)} {s s' : List Char}
      (h : Derives (.member m) s) (h' : Derives (.members ms) s') :
      Derives (.members (m :: ms)) (s ++ ',' :: s')

/-- `JSON-text`. -/
def IsText (s : List Char) (t : Value) : Prop := Derives ws (.element t) s

end Grammar

def skipWs (s : List Char) : List Char := s.dropWhile isWs

def isNumberChar (c : Char) : Bool := isDigit c || c = '.' || c = 'e' || c = 'E' || c = '+' || c = '-'

def isExp : List Char → Bool
  | [] => true
  | e :: n =>
    let ds := if n.head? = some '+' ∨ n.head? = some '-' then n.tail else n
    (e = 'e' || e = 'E') && !ds.isEmpty && ds.all isDigit

def isFracExp : List Char → Bool
  | '.' :: n => !(n.takeWhile isDigit).isEmpty && isExp (n.dropWhile isDigit)
  | n => isExp n

def isNumber (n : List Char) : Bool :=
  let n := if n.head? = some '-' then n.tail else n
  let int := n.takeWhile isDigit
  !int.isEmpty && (int.head? != some '0' || int == ['0']) && isFracExp (n.dropWhile isDigit)

def readBody : List Char → Option (List Char × List Char)
  | '"' :: r => some ([], r)
  | '\\' :: 'u' :: a :: b :: c :: d :: r =>
    if [a, b, c, d].all isHexDigit then
      (readBody r).map (fun x => ('\\' :: 'u' :: a :: b :: c :: d :: x.1, x.2))
    else none
  | '\\' :: c :: r =>
    if c ∈ escapes then (readBody r).map (fun x => ('\\' :: c :: x.1, x.2)) else none
  | c :: r => if 0x20 ≤ c.toNat ∧ c ≠ '\\' then (readBody r).map (fun x => (c :: x.1, x.2)) else none
  | [] => none

def readNumber (s : List Char) : Option (List Char × List Char) :=
  let n := s.takeWhile isNumberChar
  if isNumber n then some (n, s.dropWhile isNumberChar) else none

section Reader

variable (ws : List (List Char))

def readWord (s : List Char) : Option (List Char × List Char) :=
  (ws.find? (fun w => w.isPrefixOf s)).map (fun w => (w, s.drop w.length))

def readScalar (s : List Char) : Option (Value × List Char) :=
  match readWord ws s with
  | some (w, r) => some (.word w, r)
  | none => (readNumber s).map (fun x => (.number x.1, x.2))

/-- A name, its colon and what follows. -/
def readName (s : List Char) : Option (List Char × List Char) :=
  match skipWs s with
  | '"' :: s =>
    match readBody s with
    | some (b, r) =>
      match skipWs r with
      | ':' :: r => some (b, r)
      | _ => none
    | none => none
  | _ => none

mutual

def readValue : ℕ → List Char → Option (Value × List Char)
  | 0, _ => none
  | fuel + 1, s =>
    match s with
    | '"' :: s => (readBody s).map (fun x => (.string x.1, x.2))
    | '[' :: s =>
      match skipWs s with
      | ']' :: r => some (.array [], r)
      | _ => (readElements fuel s).map (fun x => (.array x.1, x.2))
    | '\x7b' :: s =>
      match skipWs s with
      | '\x7d' :: r => some (.object [], r)
      | _ => (readMembers fuel s).map (fun x => (.object x.1, x.2))
    | s => readScalar ws s

def readElements : ℕ → List Char → Option (List Value × List Char)
  | 0, _ => none
  | fuel + 1, s =>
    match readValue fuel (skipWs s) with
    | none => none
    | some (t, r) =>
      match skipWs r with
      | ',' :: r => (readElements fuel r).map (fun x => (t :: x.1, x.2))
      | ']' :: r => some ([t], r)
      | _ => none

def readMembers : ℕ → List Char → Option (List (List Char × Value) × List Char)
  | 0, _ => none
  | fuel + 1, s =>
    match readName s with
    | none => none
    | some (b, s) =>
      match readValue fuel (skipWs s) with
      | none => none
      | some (t, r) =>
        match skipWs r with
        | ',' :: r => (readMembers fuel r).map (fun x => ((b, t) :: x.1, x.2))
        | '\x7d' :: r => some ([(b, t)], r)
        | _ => none

end

/-- The reader; a text is never deeper than it is long. -/
def parse (s : List Char) : Option Value :=
  match readValue ws (s.length + 1) (skipWs s) with
  | some (t, r) => if skipWs r = [] then some t else none
  | none => none

end Reader

end JsonText
