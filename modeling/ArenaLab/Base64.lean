import Mathlib.Data.List.Basic
import Mathlib.Tactic.Common

/-! Base 64 with padding: three bytes are four digits, and only the last group may be
short. The decoder is the strict one of `binascii`, which takes padding of any length
after a whole last group. -/

namespace Base64

def alphabet : List Char := "ABCDEFGHIJKLMNOPQRSTUVWXYZabcdefghijklmnopqrstuvwxyz0123456789+/".toList

def digit (n : ℕ) : Char := alphabet.getD n '='

def value (c : Char) : Option ℕ := alphabet.findIdx? (· == c)

def encode : List UInt8 → List Char
  | [] => []
  | [a] => [digit (a.toNat / 4), digit (a.toNat * 16 % 64), '=', '=']
  | [a, b] =>
    let n := a.toNat * 256 + b.toNat
    [digit (n / 1024), digit (n / 16 % 64), digit (n * 4 % 64), '=']
  | a :: b :: c :: rest =>
    let n := a.toNat * 65536 + b.toNat * 256 + c.toNat
    digit (n / 262144) :: digit (n / 4096 % 64) :: digit (n / 64 % 64) :: digit (n % 64) :: encode rest

/-- The groups from one of them on; padding between two groups must be the end of the text. -/
def groups : List Char → Option (List UInt8)
  | [] => some []
  | a :: rest =>
    if a = '=' then if rest.all (· == '=') then some [] else none
    else match rest with
      | b :: c :: d :: rest =>
        match value a, value b, value c, value d with
        | some w, some x, some y, some z =>
          let n := w * 262144 + x * 4096 + y * 64 + z
          (groups rest).map ([UInt8.ofNat (n / 65536), UInt8.ofNat (n / 256), UInt8.ofNat n] ++ ·)
        | some w, some x, some y, none =>
          let n := w * 4096 + x * 64 + y
          if d = '=' ∧ rest = [] then some [UInt8.ofNat (n / 1024), UInt8.ofNat (n / 4)] else none
        | some w, some x, none, none =>
          let n := w * 64 + x
          if c = '=' ∧ d = '=' ∧ rest = [] then some [UInt8.ofNat (n / 16)] else none
        | _, _, _, _ => none
      | _ => none

/-- `b64decode` with `validate=True`: a text does not begin with padding. -/
def decode (text : List Char) : Option (List UInt8) := if text.head? = some '=' then none else groups text

example : decode "Zm9v==".toList = decode "Zm9v".toList := by decide

end Base64
