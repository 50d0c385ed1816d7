import PadRelay.Toml.Lexical

/-!
This module contains the numbers of TOML. Integers have 64 bits. A fraction is only checked, since no
setting is one, and this includes that it is not too large for a double.
-/

namespace PadRelay.Toml

/--
Reads as many digits as there are, where an underscore may stand between two of them.
-/
def moreDigits (base : Nat) : List Char → List Nat × List Char
  | [] => ([], [])
  | '_' :: c :: rest =>
    match digit? base c with
    | none => ([], '_' :: c :: rest)
    | some d =>
      let r := moreDigits base rest
      (d :: r.1, r.2)
  | c :: rest =>
    match digit? base c with
    | none => ([], c :: rest)
    | some d =>
      let r := moreDigits base rest
      (d :: r.1, r.2)

def someDigits (base : Nat) : List Char → Option (List Nat × List Char)
  | [] => none
  | c :: rest =>
    match digit? base c with
    | none => none
    | some d =>
      let r := moreDigits base rest
      some (d :: r.1, r.2)

/--
Reads a sign, if there is one. It is `true` for a minus.
-/
def readSign : List Char → Bool × List Char
  | '+' :: rest => (false, rest)
  | '-' :: rest => (true, rest)
  | cs => (false, cs)

def readDecimal : List Char → Option (List Nat × List Char)
  | '0' :: rest => some ([0], rest)
  | cs => someDigits 10 cs

def integer? (n : Int) : Option Int :=
  if Int64.minValue.toInt ≤ n ∧ n ≤ Int64.maxValue.toInt then some n else none

/--
Reads an integer. Only decimal ones have a sign.
-/
def readInteger : List Char → Option (Int × List Char)
  | '0' :: 'x' :: rest => ofBase 16 rest
  | '0' :: 'o' :: rest => ofBase 8 rest
  | '0' :: 'b' :: rest => ofBase 2 rest
  | cs =>
    let signed := readSign cs
    match readDecimal signed.2 with
    | none => none
    | some (digits, rest) =>
      let n : Int := ofDigits 10 digits
      (integer? (if signed.1 then -n else n)).map fun n => (n, rest)
where
  ofBase (base : Nat) (cs : List Char) : Option (Int × List Char) :=
    match someDigits base cs with
    | none => none
    | some (digits, rest) => (integer? (ofDigits base digits)).map fun n => (n, rest)

/--
Whether the double nearest to `mantissa * 10 ^ exponent` is infinite. The largest finite double is
`(2 ^ 53 - 1) * 2 ^ 971`, and half a step above it rounds to infinity.
-/
def isInfinite (mantissa : Nat) (exponent : Int) : Bool :=
  let digits : Int := (Nat.toDigits 10 mantissa).length
  if mantissa = 0 ∨ exponent + digits ≤ 308 then false
  else if 310 < exponent + digits then true
  else (Nat.pow 2 54 - 1) * Nat.pow 2 970 * Nat.pow 10 (-exponent).toNat ≤
    mantissa * Nat.pow 10 exponent.toNat

def readExponent : List Char → Option (Int × List Char)
  | c :: rest =>
    if c = 'e' ∨ c = 'E' then
      let signed := readSign rest
      (someDigits 10 signed.2).map fun r =>
        let n : Int := ofDigits 10 r.1
        (if signed.1 then -n else n, r.2)
    else
      none
  | [] => none

def readPlaces : List Char → Option (List Nat × List Char)
  | '.' :: rest => someDigits 10 rest
  | _ => none

def readScale (cs : List Char) : Option ((List Nat × Int) × List Char) :=
  match readPlaces cs with
  | some (places, rest) =>
    match readExponent rest with
    | some (exponent, rest) => some ((places, exponent), rest)
    | none => some ((places, 0), rest)
  | none => (readExponent cs).map fun r => (([], r.1), r.2)

def readFloat (cs : List Char) : Option (List Char) :=
  let signed := readSign cs
  match signed.2 with
  | 'i' :: 'n' :: 'f' :: rest => some rest
  | 'n' :: 'a' :: 'n' :: rest => some rest
  | _ =>
    match readDecimal signed.2 with
    | none => none
    | some (digits, rest) =>
      match readScale rest with
      | none => none
      | some ((places, exponent), rest) =>
        let mantissa := ofDigits 10 (digits ++ places)
        if !signed.1 && isInfinite mantissa (exponent - places.length) then none else some rest

end PadRelay.Toml
