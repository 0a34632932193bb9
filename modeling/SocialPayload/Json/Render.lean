import SocialPayload.Json.Basic
import SocialPayload.Number.Shortest

namespace SocialPayload.Json

open Number

/-- One character inside a string. Only controls below the space, the quote and the backslash are
escaped. -/
def escapeChar (c : Char) : List Char :=
  if c == '"' then ['\\', '"']
  else if c == '\\' then ['\\', '\\']
  else if c == '\x08' then ['\\', 'b']
  else if c == '\x0c' then ['\\', 'f']
  else if c == '\n' then ['\\', 'n']
  else if c == '\r' then ['\\', 'r']
  else if c == '\t' then ['\\', 't']
  else if c.toNat < 0x20 then
    ['\\', 'u', '0', '0', Nat.digitChar (c.toNat / 16), Nat.digitChar (c.toNat % 16)]
  else [c]

def renderString (s : String) : List Char :=
  '"' :: s.toList.flatMap escapeChar ++ ['"']

/-- Exponents of the first digit for which a number is written without an exponent. -/
def plainExponents (e : Int) : Bool :=
  -5 ≤ e && e ≤ 15

/-- Digits with a point after the one of exponent zero, and a digit on either side of it. -/
def renderPlain (digits : List Char) (lead : Int) : List Char :=
  if lead < 0 then ['0', '.'] ++ List.replicate (-lead - 1).toNat '0' ++ digits
  else
    let whole := lead.toNat + 1
    let fraction := digits.drop whole
    digits.take whole ++ List.replicate (whole - digits.length) '0' ++
      '.' :: if fraction.isEmpty then ['0'] else fraction

/-- Digits with a point after the first, unless it is the only one, and a signed exponent. -/
def renderScientific (digits : List Char) (lead : Int) : List Char :=
  let fraction := digits.drop 1
  digits.take 1 ++ (if fraction.isEmpty then [] else '.' :: fraction) ++
    ['e', if lead < 0 then '-' else '+'] ++ Nat.toDigits 10 lead.natAbs

/-- The text of a finite number, in the fewest digits that read back as it. -/
def renderNumber (x : Binary64) : List Char :=
  let sign := if x.isNegative then ['-'] else []
  if x.units = 0 then sign ++ ['0', '.', '0']
  else
    let d := x.shortest
    let digits := Nat.toDigits 10 d.coefficient
    let lead := d.exponent + digits.length - 1
    let digits := (digits.reverse.dropWhile (· == '0')).reverse
    sign ++ if plainExponents lead then renderPlain digits lead else renderScientific digits lead

mutual

def renderChars : Json → List Char
  | .null => ['n', 'u', 'l', 'l']
  | .number x => renderNumber x
  | .string s => renderString s
  | .array items => '[' :: renderItems items ++ [']']
  | .object fields => '\x7b' :: renderFields fields ++ ['\x7d']

def renderItems : List Json → List Char
  | [] => []
  | [v] => renderChars v
  | v :: rest => renderChars v ++ ',' :: renderItems rest

def renderFields : List (String × Json) → List Char
  | [] => []
  | [(key, v)] => renderString key ++ ':' :: renderChars v
  | (key, v) :: rest => renderString key ++ ':' :: renderChars v ++ ',' :: renderFields rest

end

/-- The compact text of a value, with no space between its parts. -/
def render (v : Json) : String :=
  String.ofList (renderChars v)

end SocialPayload.Json
