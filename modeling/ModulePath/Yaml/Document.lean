import ModulePath.Number.Numeral
import ModulePath.Value.Basic
import ModulePath.Yaml.Node

/-!
# YAML documents as data

A quoted scalar is a text. A plain scalar is null, a truth value, an integer or a real if it is
written like one in YAML 1.1, and a text otherwise. A later entry of a key replaces an earlier one.
-/

set_option autoImplicit false

namespace ModulePath.Yaml

/-! ## Plain scalars -/

/-- The ways to write a word: all small, with a capital, all capital. -/
def spellings (word : String) : List String := [word, word.capitalize, word.toUpper]

/-- The words that stand for null. -/
def nullWords : List String := ["", "~"] ++ spellings "null"

/-- The words that stand for true. -/
def trueWords : List String := ["yes", "true", "on"].flatMap spellings

/-- The words that stand for false. -/
def falseWords : List String := ["no", "false", "off"].flatMap spellings

/-- Whether a character is a decimal digit or an underscore. -/
def isDigitOrLine (c : Char) : Bool := c.isDigit || c = '_'

/-- The digits of a numeral without underscores. -/
def dropLines (cs : List Char) : List Char := cs.filter (· ≠ '_')

/-- The number that digits in a base make up. A numeral without any digit, or a decimal one with too
many, is a fault. -/
def inBase (base : Nat) (cs : List Char) : Except Fault Nat :=
  match (dropLines cs).mapM hexValue? with
  | none | some [] => .error .value
  | some ds =>
    if base = 10 && Numeral.maxDigits < ds.length then .error .value
    else .ok (ds.foldl (fun n d => base * n + d) 0)

/-- Whether a part of a numeral to the base sixty is one. -/
def isSixtieth : List Char → Bool
  | [c] => c.isDigit
  | [c, d] => '0' ≤ c && c ≤ '5' && d.isDigit
  | _ => false

/-- The parts of an integer to the base sixty. -/
def sixtieths? (cs : List Char) : Option (List (List Char)) :=
  match Text.splitAt ':' cs with
  | (c :: head) :: part :: parts =>
    if '1' ≤ c && c ≤ '9' && head.all isDigitOrLine && (part :: parts).all isSixtieth then
      some ((c :: head) :: part :: parts)
    else none
  | _ => none

/-- An integer without its sign. -/
def natural? : List Char → Option (Except Fault Nat)
  | ['0'] => some (.ok 0)
  | '0' :: 'b' :: ds =>
    if !ds.isEmpty && ds.all fun c => c = '0' || c = '1' || c = '_' then some (inBase 2 ds)
    else none
  | '0' :: 'x' :: ds =>
    if !ds.isEmpty && ds.all fun c => (hexValue? c).isSome || c = '_' then some (inBase 16 ds)
    else none
  | '0' :: ds =>
    if ds.all fun c => ('0' ≤ c && c ≤ '7') || c = '_' then some (inBase 8 ('0' :: ds))
    else none
  | c :: ds =>
    if c.isDigit && ds.all isDigitOrLine then some (inBase 10 (c :: ds))
    else
      (sixtieths? (c :: ds)).map fun parts => do
        let ns ← parts.mapM (inBase 10)
        return ns.foldl (fun n d => 60 * n + d) 0
  | [] => none

/-- An integer. -/
def integer? (cs : List Char) : Option (Except Fault Int) :=
  let (negative, body) := Numeral.splitSign cs
  (natural? body).map fun r => r.map fun n => if negative then -(n : Int) else n

/-- Whether a text is an exponent with its sign, or empty. -/
def isExponent : List Char → Bool
  | [] => true
  | e :: sign :: ds =>
    (e = 'e' || e = 'E') && (sign = '+' || sign = '-') && !ds.isEmpty && ds.all Char.isDigit
  | _ => false

/-- Whether a text is written like a real: digits, a point, and maybe digits and an exponent. -/
def isReal : List Char → Bool
  | [] => false
  | c :: rest =>
    c.isDigit &&
      match rest.dropWhile isDigitOrLine with
      | '.' :: tail => isExponent (tail.dropWhile isDigitOrLine)
      | _ => false

/-- Whether a text is written like a real without digits before its point. -/
def isFraction : List Char → Bool
  | '.' :: c :: tail => c.isDigit && isExponent (tail.dropWhile isDigitOrLine)
  | _ => false

/-- The parts of a real to the base sixty, the last with a fraction. -/
def sixtiethReal? (cs : List Char) : Option (List (List Char)) :=
  let whole := cs.takeWhile (· ≠ '.')
  match cs.dropWhile (· ≠ '.'), Text.splitAt ':' whole with
  | '.' :: fraction, (c :: head) :: part :: parts =>
    if c.isDigit && head.all isDigitOrLine && (part :: parts).all isSixtieth &&
        fraction.all isDigitOrLine then
      some (Text.splitAt ':' (dropLines cs))
    else none
  | _, _ => none

/-- The sum of parts, the last first, each multiplied with `base` and a power of sixty. -/
def sumOfParts (base : Nat) (sum : Double) : List Double → Except Fault Double
  | [] => .ok sum
  | part :: rest => do
    let product ← part.times? base
    sumOfParts (60 * base) (sum.plus product) rest

/-- The double of a real to the base sixty, rounded after every step. -/
def ofSixtieths (negative : Bool) (parts : List (List Char)) : Except Fault Double := do
  let numbers := parts.map fun part => (Numeral.unsignedReal? false part).getD .zero
  let sum ← sumOfParts 1 .zero numbers.reverse
  return if negative then sum.negate else sum

/-- A real. -/
def real? (cs : List Char) : Option (Except Fault Double) :=
  let (negative, body) := Numeral.splitSign cs
  if body = ".inf".toList || body = ".Inf".toList || body = ".INF".toList then
    some (.ok (.infinity negative))
  else if cs = ".nan".toList || cs = ".NaN".toList || cs = ".NAN".toList then some (.ok .nan)
  else if isReal body || isFraction cs then
    (Numeral.unsignedReal? negative (dropLines body)).map .ok
  else (sixtiethReal? body).map (ofSixtieths negative)

/-! ## Dates -/

/-- What follows a run of `least` to `most` digits. -/
def afterDigits? (least most : Nat) (cs : List Char) : Option (List Char) :=
  let n := (cs.takeWhile Char.isDigit).length
  if least ≤ n && n ≤ most then some (cs.drop n) else none

/-- What follows a character. -/
def after? (p : Char → Bool) : List Char → Option (List Char)
  | [] => none
  | c :: rest => if p c then some rest else none

/-- What follows a date whose month and day have at least `least` digits. -/
def afterDate? (least : Nat) (cs : List Char) : Option (List Char) := do
  let cs ← after? (· = '-') (← afterDigits? 4 4 cs)
  let cs ← after? (· = '-') (← afterDigits? least 2 cs)
  afterDigits? least 2 cs

/-- What follows a time of day. -/
def afterTime? (cs : List Char) : Option (List Char) := do
  let cs ← after? (· = ':') (← afterDigits? 1 2 cs)
  let cs ← after? (· = ':') (← afterDigits? 2 2 cs)
  let cs ← afterDigits? 2 2 cs
  return ((after? (· = '.') cs).map fun rest => rest.dropWhile Char.isDigit).getD cs

/-- Whether a text is empty or a time zone. -/
def isZone (cs : List Char) : Bool :=
  cs.isEmpty ||
    match cs.dropWhile isBlank with
    | ['Z'] => true
    | sign :: offset =>
      (sign = '+' || sign = '-') &&
        match afterDigits? 1 2 offset with
        | some [] => true
        | some (':' :: minutes) => afterDigits? 2 2 minutes == some []
        | _ => false
    | [] => false

/-- What follows the separator between a date and a time. -/
def afterGap? : List Char → Option (List Char)
  | [] => none
  | c :: rest =>
    if c = 'T' || c = 't' then some rest
    else if isBlank c then some (rest.dropWhile isBlank)
    else none

/-- Whether a text is written like a date, maybe with a time. -/
def isDate (cs : List Char) : Bool :=
  afterDate? 2 cs == some [] ||
    (((afterDate? 1 cs).bind afterGap?).bind afterTime?).any isZone

/-! ## Values -/

/-- What a plain scalar stands for. -/
def plainValue? (s : String) : Outcome Error Value :=
  let cs := s.toList
  if nullWords.contains s then .ok .null
  else if trueWords.contains s then .ok (.bool true)
  else if falseWords.contains s then .ok (.bool false)
  else
    match integer? cs, real? cs with
    | some (.ok n), _ => .ok (.int n)
    | some (.error f), _ => Outcome.fault f
    | none, some (.ok d) => .ok (.real d)
    | none, some (.error f) => Outcome.fault f
    | none, none =>
      if isDate cs || s == "=" || s == "<<" then Outcome.refuse .unsupported else .ok (.str s)

/-! ## Nodes -/

/-- What a scalar that is a key stands for. The word `=` is a text there. -/
def keyValue? (plain : Bool) (text : String) : Outcome Error Value :=
  if plain && text ≠ "=" then plainValue? text else .ok (.str text)

namespace Node

/-- Check that a scalar stands for something. -/
def check : Node → Outcome Error Unit
  | .scalar true s => (plainValue? s).map fun _ => ()
  | _ => .ok ()

/-- Check the entries of a mapping: a key has to be a scalar. -/
def checkEntries : List (Node × Node) → Outcome Error Unit
  | [] => .ok ()
  | (.scalar plain s, v) :: rest => do
    let _ ← keyValue? plain s
    v.check
    checkEntries rest
  | _ => Outcome.refuse .collectionKey

/-- Check what is right inside a collection. -/
def checkContent : Node → Outcome Error Unit
  | .sequence items => items.forM check
  | .mapping entries => checkEntries entries
  | _ => .ok ()

/-- What is right inside a collection, keys aside. -/
def content : Node → List Node
  | .sequence items => items
  | .mapping entries => entries.map (·.2)
  | _ => []

/-- The collection that a node refers to, if it does. -/
def target (collections : List Node) : Node → Node
  | .named number => (collections[number]?).getD empty
  | n => n

/-- Check collections that are equally deep inside others, and then what is deeper. -/
def checkLevels (collections : List Node) : Nat → List Node → Outcome Error Unit
  | 0, _ => .ok ()
  | _, [] => .ok ()
  | depth + 1, level => do
    let level := level.map (target collections)
    level.forM checkContent
    checkLevels collections depth (level.flatMap content)

mutual
/-- What a node stands for, when so much is known about collections with anchors. -/
def value? (known : List Value) : Node → Outcome Error Value
  | .scalar true s => plainValue? s
  | .scalar false s => .ok (.str s)
  | .sequence items => do return .list (← values? known items)
  | .mapping entries => do return .ofEntries (← entries? known entries)
  | .named number => .ok ((known[number]?).getD .null)
/-- What the items of a sequence stand for. -/
def values? (known : List Value) : List Node → Outcome Error (List Value)
  | [] => .ok []
  | n :: rest => do
    let v ← value? known n
    return v :: (← values? known rest)
/-- What the entries of a mapping stand for. -/
def entries? (known : List Value) : List (Node × Node) → Outcome Error (List (Value × Value))
  | [] => .ok []
  | (.scalar plain s, n) :: rest => do
    let key ← keyValue? plain s
    let v ← value? known n
    return (key, v) :: (← entries? known rest)
  | _ => Outcome.refuse .collectionKey
end

end Node

namespace Document

/-- Check what a document holds. Of several things that stand for nothing the least deep one
counts. -/
def check (d : Document) : Outcome Error Unit := do
  d.node.check
  Node.checkLevels d.collections ((Node.maxDepth + 1) * (d.collections.length + 1)) [d.node]

/-- What the collections with anchors stand for, each of which refers only to those before it. -/
def known? (d : Document) : Outcome Error (List Value) :=
  d.collections.foldlM (fun known n => do return known ++ [← n.value? known]) []

/-- The data of a document. -/
def value? (d : Document) : Outcome Error Value := do
  d.check
  d.node.value? (← d.known?)

/-- The document in a file. -/
def ofContent? (c : Content) : Outcome Error Document := ofTokens? (Token.ofSource (.ofContent c))

end Document

/-- The data of the document in a file. -/
def ofContent? (c : Content) : Outcome Error Value := do (← Document.ofContent? c).value?

end ModulePath.Yaml
