import Arborist.Language
import Arborist.Settings.Value
import Arborist.Text.Blank

/-!
# Settings, and how values become settings

What people can set. A value of `Settings` is valid by construction: the language has a grammar and
the spacing is a natural number.

Each field accepts some values and turns them into its own type: a truth value may be written as
a number or a word, an integer as a text. Everything that is wrong is reported at once, the fields
in their order, then the keys that are no field.
-/

namespace Arborist

open Text Numeral

/-- The settings of a run. -/
structure Settings where
  /-- The grammar used when no language is given and none follows from a file name. -/
  language : Language := .javascript
  /-- Whether malformed patterns bring suggestions. -/
  suggestPatterns : Bool := true
  /-- Blank lines put between the methods of a class by insertion. -/
  methodSpacing : Nat := 1
  /-- The name of the log threshold, checked when it is used. -/
  logLevel : String := "WARNING"
  deriving DecidableEq, Repr

/-- What is wrong with a value, or with a key. -/
inductive Complaint where
  | notText
  /-- Bytes are no text. -/
  | notTextBytes
  | notInteger
  | notIntegerText
  | hasFraction
  | notFinite
  | tooLarge
  | notTruth
  | notTruthText
  | unsupportedLanguage (name : String)
  | negativeSpacing
  | unknownKey
  deriving DecidableEq, Repr

namespace Complaint

/-- The short name of a complaint. -/
def code : Complaint → String
  | .notText => "string_type"
  | .notTextBytes => "string_unicode"
  | .notInteger => "int_type"
  | .notIntegerText => "int_parsing"
  | .hasFraction => "int_from_float"
  | .notFinite => "finite_number"
  | .tooLarge => "int_parsing_size"
  | .notTruth => "bool_type"
  | .notTruthText => "bool_parsing"
  | .unsupportedLanguage _ => "value_error"
  | .negativeSpacing => "value_error"
  | .unknownKey => "extra_forbidden"

/-- The wording of a complaint. -/
def message : Complaint → String
  | .notText => "Input should be a valid string"
  | .notTextBytes =>
    "Input should be a valid string, unable to parse raw data as a unicode string"
  | .notInteger => "Input should be a valid integer"
  | .notIntegerText => "Input should be a valid integer, unable to parse string as an integer"
  | .hasFraction => "Input should be a valid integer, got a number with a fractional part"
  | .notFinite => "Input should be a finite number"
  | .tooLarge => "Unable to parse input string as an integer, exceeded maximum size"
  | .notTruth => "Input should be a valid boolean"
  | .notTruthText => "Input should be a valid boolean, unable to interpret input"
  | .unsupportedLanguage name =>
    "Value error, unsupported language " ++ quoted name ++ ", expected one of "
      ++ Language.namesListed
  | .negativeSpacing => "Value error, method_spacing must be >= 0"
  | .unknownKey => "Extra inputs are not permitted"

end Complaint

/-- A complaint and the key it is about. -/
structure Detail where
  key : String
  complaint : Complaint
  deriving DecidableEq, Repr

namespace Settings

/-! ### Fields -/

/-- The text that a value holds, also in bytes; bytes that are no text bring a complaint. -/
def heldText? (complaint : Complaint) : Value → Except Complaint (Option String)
  | .scalar (.text text) => .ok (some text)
  | .scalar (.bytes bytes) =>
    match decode? bytes with
    | some text => .ok (some text)
    | none => .error complaint
  | _ => .ok none

/-- A text. -/
def textField (value : Value) : Except Complaint String := do
  match ← heldText? .notTextBytes value with
  | some text => return text
  | none => throw .notText

/-- A language with a grammar, by name. -/
def languageField (value : Value) : Except Complaint Language := do
  let name ← textField value
  match Language.ofName? name with
  | some language => return language
  | none => throw (.unsupportedLanguage name)

/-- The words for truth values, in lower case. -/
def truthWords : List (String × Bool) := [
  ("0", false), ("off", false), ("f", false), ("false", false), ("n", false), ("no", false),
  ("1", true), ("on", true), ("t", true), ("true", true), ("y", true), ("yes", true)]

/-- The first number that does not fit into a signed word of 64 bits. -/
def wordBound : Nat := 9223372036854775808

/-- Zero and one are truth values. A number that does not fit into a word is not even looked at as
one. -/
def truthOfInteger (n : Int) : Except Complaint Bool :=
  if n < -(wordBound : Int) || (wordBound : Int) ≤ n then .error .notTruth
  else if n == 0 then .ok false
  else if n == 1 then .ok true
  else .error .notTruthText

/-- Whether a whole number is small enough to be taken for an integer. -/
def isModerate (n : Int) : Bool := n.natAbs < wordBound

/-- The truth value that a word stands for. Words may be in any ASCII case. -/
def truthOfText (text : String) : Except Complaint Bool :=
  match truthWords.lookup (String.ofList (text.toList.map Char.toLower)) with
  | some value => .ok value
  | none => .error .notTruthText

/-- A truth value, or a number or a word for one. -/
def truthField (value : Value) : Except Complaint Bool := do
  if let some text ← heldText? .notTruthText value then return ← truthOfText text
  match value with
  | .scalar (.bool truth) => return truth
  | .scalar (.int n) => truthOfInteger n
  | .scalar (.float number) =>
    match number.toInteger?.filter isModerate with
    | some n => truthOfInteger n
    | none => throw .notTruth
  | _ => throw .notTruth

/-- What is left of digits without the zeros before them: from the first digit that is not zero or
the minus sign on, or from the zero before the point. Low lines between zeros go with them. If
there is nothing else, the last character is left. -/
def afterZeros (last : Char) : List Char → Option (List Char)
  | [] => some [last]
  | c :: rest =>
    if c == '0' || c == '_' then afterZeros c rest
    else if ('1' ≤ c && c ≤ '9') || c == '-' then some (c :: rest)
    else if c == '.' then some (last :: c :: rest)
    else none

/-- Drop the zeros that a number without its sign starts with. It starts with a digit. -/
def dropLeadingZeros? : List Char → Option (List Char)
  | [] => none
  | c :: rest =>
    if c == '0' then afterZeros c rest
    else if '1' ≤ c && c ≤ '9' then some (c :: rest)
    else none

/-- Drop a point and the zeros after it, if there are any and nothing else follows. -/
def dropZeroFraction (cs : List Char) : List Char :=
  let (whole, fraction) := cs.span (· != '.')
  let zeros := fraction.drop 1
  if !zeros.isEmpty && zeros.all (· == '0') then whole else cs

/-- Drop the low lines of a number, if they are single ones inside it. -/
def dropLowLines (cs : List Char) : List Char :=
  let doubled := (cs.zip (cs.drop 1)).contains ('_', '_')
  if cs.head? == some '_' || cs.getLast? == some '_' || doubled then cs
  else cs.filter (· != '_')

/-- A number without its sign as a text may give it: zeros before it, a fraction of zeros and single
low lines are dropped. -/
def cleanDigits? (cs : List Char) : Option (List Char) := do
  return dropLowLines (dropZeroFraction (← dropLeadingZeros? cs))

/-- The digits of an integer as a text may give it, with a minus sign if it has one: white space
around it and a plus sign are dropped, then the number is cleaned behind its minus sign. -/
def integerDigits? (text : String) : Option (List Char) :=
  match trimBoth isWhiteSpace text.toList with
  | '+' :: cs => cleanDigits? cs
  | '-' :: cs => (cleanDigits? cs).map ('-' :: ·)
  | cs => cleanDigits? cs

/-- How many digits an integer may have. -/
def longestInteger : Nat := 4300

/-- An integer written as text. It has no further zeros before it. One that is too long is found
out before what follows its digits is looked at. -/
def integerOfText (text : String) : Except Complaint Int :=
  match integerDigits? text with
  | none => .error .notIntegerText
  | some cs =>
    let negative := cs.head? == some '-'
    let (digits, rest) := (if negative then cs.drop 1 else cs).span Char.isDigit
    let zeroFirst := digits.head? == some '0'
    if digits.isEmpty || (zeroFirst && digits.length > 1) then .error .notIntegerText
    else if digits.length > longestInteger then .error .tooLarge
    else if !rest.isEmpty then .error .notIntegerText
    else .ok (signed negative (ofDigits 10 (digits.filterMap (asciiDigit? 10))))

/-- An integer, or a truth value, a number without fraction or a text for one. -/
def integerField (value : Value) : Except Complaint Int := do
  if let some text ← heldText? .notIntegerText value then return ← integerOfText text
  match value with
  | .scalar (.int n) => return n
  | .scalar (.bool truth) => return if truth then 1 else 0
  | .scalar (.float (.finite negative significand exponent)) =>
    match (Binary.finite negative significand exponent).toInteger? with
    | some n => if isModerate n then return n else throw .tooLarge
    | none => throw .hasFraction
  | .scalar (.float _) => throw .notFinite
  | _ => throw .notInteger

/-- A number of blank lines. -/
def spacingField (value : Value) : Except Complaint Nat := do
  let n ← integerField value
  if n < 0 then throw .negativeSpacing
  return n.toNat

/-! ### All fields together -/

/-- The keys of the fields, in order. -/
def fieldKeys : List String := ["language", "suggest_patterns", "method_spacing", "log_level"]

/-- The value of a field, or its default, and the complaint about it. -/
def checkField {α : Type} (entries : List (String × Value)) (key : String) (default : α)
    (field : Value → Except Complaint α) : α × List Detail :=
  match entries.lookup key with
  | none => (default, [])
  | some value =>
    match field value with
    | .ok result => (result, [])
    | .error complaint => (default, [⟨key, complaint⟩])

/-- The settings that entries describe, or everything that is wrong with them. A field that no
entry sets has its default. -/
def ofEntries (entries : List (String × Value)) : Except (List Detail) Settings :=
  let defaults : Settings := {}
  let (language, details₁) := checkField entries "language" defaults.language languageField
  let (suggest, details₂) :=
    checkField entries "suggest_patterns" defaults.suggestPatterns truthField
  let (spacing, details₃) :=
    checkField entries "method_spacing" defaults.methodSpacing spacingField
  let (level, details₄) := checkField entries "log_level" defaults.logLevel textField
  let unknown := (entries.filter fun entry => !fieldKeys.contains entry.1).map fun entry =>
    (⟨entry.1, .unknownKey⟩ : Detail)
  let details := details₁ ++ details₂ ++ details₃ ++ details₄ ++ unknown
  if details.isEmpty then .ok ⟨language, suggest, spacing, level⟩ else .error details

end Settings

end Arborist
