import Sicae.FormatG
import Sicae.Json

/-! # JSON texts

The printer and the parser of cJSON over the tree of `Json.lean`.  A text to parse is the C
string without its terminator; what a parse function leaves is the text behind its value.  Memory
never runs out, and the decimal point of the locale is `.`.

The parser counts its nesting down: `parseValue levels` may still open `levels` arrays and
objects, and `parse` starts with `nestingLimit` of them.  So the recursion needs no measure of its
own, and the loop over the members is `Codec.readItems`. -/

namespace Sicae

namespace Json

open CString Codec Binary64

/-! ### Printing -/

/-- `%04x`. -/
def hex04 (n : ℕ) : CStr := zeroPadded 4 (Nat.toDigits 16 n)

/-- The text that `print_string_ptr` writes for a byte. -/
def escapeChar (c : Char) : CStr :=
  if c.toNat > 31 ∧ c ≠ '"' ∧ c ≠ '\\' then [c]
  else if c = '\\' then ['\\', '\\']
  else if c = '"' then ['\\', '"']
  else if c = '\x08' then ['\\', 'b']
  else if c = '\x0c' then ['\\', 'f']
  else if c = '\n' then ['\\', 'n']
  else if c = '\r' then ['\\', 'r']
  else if c = '\t' then ['\\', 't']
  else '\\' :: 'u' :: hex04 c.toNat

/-- `print_string_ptr`. -/
def printString (s : CStr) : CStr := '"' :: (s.flatMap escapeChar ++ ['"'])

/-- `compare_double`, with `DBL_EPSILON = 2 ^ -52`.  A difference that overflows exceeds the other
side here as well; two infinities of one sign have no difference. -/
def compareDouble : Double → Double → Bool
  | .finite negative a, .finite negative' b =>
      let x := signed negative a.val
      let y := signed negative' b.val
      roundBits |x - y| ≤ roundBits (max |x| |y| / 2 ^ 52)
  | .infinite negative, .infinite negative' => negative != negative'
  | .finite .., .infinite _ | .infinite _, .finite .. => true

/-- `print_number`. -/
def printNumber : Double → CStr
  | .infinite _ => "null".toList
  | .finite negative m =>
      let d : Double := .finite negative m
      if signed negative m.val = valueint d then decimal (valueint d)
      else
        match strtod (formatG 15 d) with
        | some (test, _) => if compareDouble test d then formatG 15 d else formatG 17 d
        | none => formatG 17 d

mutual

/-- `print_value` at a nesting depth. -/
def printValue (format : Bool) (depth : ℕ) : Json → CStr
  | null => "null".toList
  | bool true => "true".toList
  | bool false => "false".toList
  | number x => printNumber x
  | string s => printString s
  | array items => '[' :: (printItems format (depth + 1) items ++ [']'])
  | object members =>
      '{' :: ((if format then ['\n'] else []) ++ printMembers format (depth + 1) members ++
        (if format then List.replicate depth '\t' else []) ++ ['}'])

/-- The loop of `print_array`. -/
def printItems (format : Bool) (depth : ℕ) : List Json → CStr
  | [] => []
  | [v] => printValue format depth v
  | v :: w :: items =>
      printValue format depth v ++ (',' :: if format then [' '] else []) ++
        printItems format depth (w :: items)

/-- The loop of `print_object`. -/
def printMembers (format : Bool) (depth : ℕ) : List (CStr × Json) → CStr
  | [] => []
  | (name, v) :: members =>
      (if format then List.replicate depth '\t' else []) ++ printString name ++
        (':' :: if format then ['\t'] else []) ++ printValue format depth v ++
        (if members = [] then [] else [',']) ++ (if format then ['\n'] else []) ++
        printMembers format depth members

end

/-- `print`, which is `cJSON_Print` and, without the format, `cJSON_PrintUnformatted`. -/
def print (format : Bool) (v : Json) : CStr := printValue format 0 v

/-! ### Strings -/

/-- `parse_hex4`: four hexadecimal digits, `0` if one of them is not. -/
def parseHex4 (input : CStr) : ℕ :=
  if (input.take 4).all (fun c => (hexValue c).isSome) then
    ofDigits (fun c => (hexValue c).getD 0) 16 (input.take 4)
  else 0

/-- A continuation byte of UTF-8: the low six bits. -/
def utf8Tail (codepoint : ℕ) : Char := Char.ofNat ((codepoint ||| 0x80) &&& 0xBF)

/-- A leading byte of UTF-8. -/
def utf8Lead (mark codepoint : ℕ) : Char := Char.ofNat ((codepoint ||| mark) &&& 0xFF)

/-- The bytes of a code point. -/
def utf8Bytes (codepoint : ℕ) : Option CStr :=
  if codepoint < 0x80 then some [Char.ofNat (codepoint &&& 0x7F)]
  else if codepoint < 0x800 then
    some [utf8Lead 0xC0 (codepoint >>> 6), utf8Tail codepoint]
  else if codepoint < 0x10000 then
    some [utf8Lead 0xE0 (codepoint >>> 12), utf8Tail (codepoint >>> 6), utf8Tail codepoint]
  else if codepoint ≤ 0x10FFFF then
    some [utf8Lead 0xF0 (codepoint >>> 18), utf8Tail (codepoint >>> 12),
      utf8Tail (codepoint >>> 6), utf8Tail codepoint]
  else none

/-- `utf16_literal_to_utf8`: the bytes for the literal at the front of a text that ends where the
string does, and the length of the literal. -/
def utf16LiteralToUtf8 (input : CStr) : Option (CStr × ℕ) :=
  if input.length < 6 then none
  else
    let first := parseHex4 (input.drop 2)
    if 0xDC00 ≤ first ∧ first ≤ 0xDFFF then none
    else if 0xD800 ≤ first ∧ first ≤ 0xDBFF then
      let second := input.drop 6
      if second.length < 6 ∨ ¬ ['\\', 'u'] <+: second then none
      else
        let code := parseHex4 (second.drop 2)
        if code < 0xDC00 ∨ 0xDFFF < code then none
        else
          (utf8Bytes (0x10000 + ((first &&& 0x3FF) <<< 10 ||| code &&& 0x3FF))).map (fun s => (s, 12))
    else (utf8Bytes first).map (fun s => (s, 6))

/-- The bytes for an escape sequence, from behind its backslash up to the end of the string, and
its length.  A backslash in front of the closing quote escapes that. -/
def escapeSequence : CStr → Option (CStr × ℕ)
  | [] => some (['"'], 2)
  | 'b' :: _ => some (['\x08'], 2)
  | 'f' :: _ => some (['\x0c'], 2)
  | 'n' :: _ => some (['\n'], 2)
  | 'r' :: _ => some (['\r'], 2)
  | 't' :: _ => some (['\t'], 2)
  | '"' :: _ => some (['"'], 2)
  | '\\' :: _ => some (['\\'], 2)
  | '/' :: _ => some (['/'], 2)
  | 'u' :: rest => utf16LiteralToUtf8 ('\\' :: 'u' :: rest)
  | _ => none

/-- The loop through the string literal, with the number of bytes still to be stepped over. -/
def unescape : ℕ → CStr → Option CStr
  | _, [] => some []
  | skip + 1, _ :: rest => unescape skip rest
  | 0, c :: rest =>
      if c ≠ '\\' then (unescape 0 rest).map (c :: ·)
      else (escapeSequence rest).bind (fun e => (unescape (e.2 - 1) rest).map (e.1 ++ ·))

/-- The search for the closing quote: the text before it and the text behind it. -/
def scanString : CStr → Option (CStr × CStr)
  | [] => none
  | ['\\'] => none
  | '"' :: rest => some ([], rest)
  | '\\' :: c :: rest => (scanString rest).map (fun p => ('\\' :: c :: p.1, p.2))
  | c :: rest => (scanString rest).map (fun p => (c :: p.1, p.2))

/-- `parse_string`; the string ends where its value has a NUL. -/
def parseString : CStr → Option (CStr × CStr)
  | '"' :: rest => (scanString rest).bind fun p => (unescape 0 p.1).map (fun s => (cstr s, p.2))
  | _ => none

/-! ### Numbers -/

/-- The characters that `parse_number` copies. -/
def isNumberChar (c : Char) : Bool := isNumberTail c || c = '+' || c = '-'

/-- The text that is given to `strtod`: at most 63 characters. -/
def numberText (text : CStr) : CStr := (text.takeWhile isNumberChar).take 63

/-- `parse_number`. -/
def parseNumber (text : CStr) : Option (Double × CStr) :=
  (strtod (numberText text)).map fun p =>
    (p.1, text.drop ((numberText text).length - p.2.length))

/-! ### Values -/

/-- `buffer_skip_whitespace`. -/
def skipWhitespace (text : CStr) : CStr := text.dropWhile (fun c => c.toNat ≤ 32)

/-- An item of an array, with the white space around it. -/
def parseItem (value : Reader Char Json) : Reader Char Json := fun text =>
  (value (skipWhitespace text)).map (fun p => (p.1, skipWhitespace p.2))

/-- A member of an object, with the white space around it. -/
def parseMember (value : Reader Char Json) : Reader Char (CStr × Json) := fun text =>
  (parseString (skipWhitespace text)).bind fun p =>
    match skipWhitespace p.2 with
    | ':' :: rest => (parseItem value rest).map (fun q => ((p.1, q.1), q.2))
    | _ => none

/-- `parse_array` and `parse_object` behind the opening bracket: nothing but the closing one, or
the loop over the items. -/
def parseItems {β : Type} (item : Reader Char β) (close : Char) : Reader Char (List β) := fun text =>
  match skipWhitespace text with
  | [] => none
  | c :: rest =>
      if c = close then some ([], rest) else readItems item ',' close (rest.length + 2) (c :: rest)

/-- `parse_value`, which may still open `levels` arrays and objects. -/
def parseValue : ℕ → Reader Char Json
  | levels, text =>
      if "null".toList <+: text then some (null, text.drop 4)
      else if "false".toList <+: text then some (bool false, text.drop 5)
      else if "true".toList <+: text then some (bool true, text.drop 4)
      else
        match text, levels with
        | [], _ => none
        | '"' :: _, _ => (parseString text).map (fun p => (string p.1, p.2))
        | '[' :: _, 0 => none
        | '{' :: _, 0 => none
        | '[' :: rest, levels + 1 =>
            (parseItems (parseItem (parseValue levels)) ']' rest).map (fun p => (array p.1, p.2))
        | '{' :: rest, levels + 1 =>
            (parseItems (parseMember (parseValue levels)) '}' rest).map (fun p => (object p.1, p.2))
        | c :: _, _ =>
            if c = '-' ∨ c.isDigit then (parseNumber text).map (fun p => (number p.1, p.2))
            else none

/-- `CJSON_NESTING_LIMIT`. -/
def nestingLimit : ℕ := 1000

/-- `skip_utf8_bom`. -/
def skipUtf8Bom (text : CStr) : CStr :=
  if 4 ≤ text.length ∧ ['\xEF', '\xBB', '\xBF'] <+: text then text.drop 3 else text

/-- `cJSON_Parse`: what follows the value is not looked at. -/
def parse (text : CStr) : Option Json :=
  (parseValue nestingLimit (skipWhitespace (skipUtf8Bom text))).map Prod.fst

end Json

end Sicae
