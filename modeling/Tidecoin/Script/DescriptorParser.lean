import Tidecoin.KeyIO
import Tidecoin.Script.DescriptorCache

/-!
The parser of descriptors: `ParsePubkey`, `KeyParser` and `ParseScript` of `script/descriptor.cpp`
with the text functions of `script/parsing.cpp`. Every key expression gets the number of those
before it, so the numbers of a parsed descriptor are `0, 1, …` in the order its keys are written,
and an expansion can be read back from its cache.

The decoding of secret keys and the miniscript parser are parameters. Key expressions with several
paths are not supported by the source, so each of its lists of alternatives has one element.
-/

namespace Tidecoin

open Lib Script

/-- The characters of a text. -/
abbrev Text := List Char

namespace Text

def isSpace (c : Char) : Bool := Base58.isSpace (UInt8.ofNat c.toNat)

/-- `HexDigit`. -/
def hexDigit (c : Char) : Option Nat :=
  if '0' ≤ c ∧ c ≤ '9' then some (c.toNat - '0'.toNat)
  else if 'a' ≤ c ∧ c ≤ 'f' then some (c.toNat - 'a'.toNat + 10)
  else if 'A' ≤ c ∧ c ≤ 'F' then some (c.toNat - 'A'.toNat + 10)
  else none

/-- The bytes of pairs of hexadecimal digits. -/
def hexPairs : Text → Option Bytes
  | [] => some []
  | [_] => none
  | high :: low :: rest => do
      let high ← hexDigit high
      let low ← hexDigit low
      let bytes ← hexPairs rest
      return UInt8.ofNat (16 * high + low) :: bytes

/-- `ParseHex`, for a text that passes `IsHex`. -/
def parseHex (str : Text) : Option Bytes := if str = [] then none else hexPairs str

/-- `uint256::FromHex`: the last digits are the first byte. -/
def uint256FromHex (str : Text) : Option Uint256 :=
  if str.length ≠ 64 then none
  else (parseHex str).map fun bytes => Uint256.ofBytes bytes.reverse

/-- `ToIntegral<uint32_t>`. -/
def toIntegral (str : Text) : Option UInt32 :=
  let value := str.foldl (fun value c => 10 * value + (c.toNat - '0'.toNat)) 0
  if str ≠ [] ∧ str.all Char.isDigit ∧ value < 2 ^ 32 then some (UInt32.ofNat value) else none

/-- `Func`: the text between the brackets of a function. -/
def func (str : String) (sp : Text) : Option Text :=
  if sp.length ≥ str.length + 2 ∧ sp[str.length]? = some '(' ∧ sp.getLast? = some ')' ∧
      str.toList <+: sp then
    some ((sp.drop (str.length + 1)).take (sp.length - str.length - 2))
  else none

/-- `Expr`, again and again: the expression at the start of a text, and after each character that
ended one the expression that follows. -/
def exprs : (level : Nat) → Text → Text × List (Char × Text)
  | _, [] => ([], [])
  | level, c :: rest =>
    if c = '(' ∨ c = '\x7b' then
      let (expr, others) := exprs (level + 1) rest
      (c :: expr, others)
    else if level ≠ 0 ∧ (c = ')' ∨ c = '\x7d') then
      let (expr, others) := exprs (level - 1) rest
      (c :: expr, others)
    else if level = 0 ∧ (c = ')' ∨ c = '\x7d' ∨ c = ',') then
      let (expr, others) := exprs 0 rest
      ([], (c, expr) :: others)
    else
      let (expr, others) := exprs level rest
      (c :: expr, others)

end Text

/-- The miniscript parser as its caller sees it: it asks for the keys one after the other, of which
it learns the size and the scheme, and ends with a node or without one. A node that is not sane, or
that cannot be satisfied, has an error text; any other one makes a script of the keys. -/
inductive MiniscriptRun where
  | key (text : Text) (next : (keySize : Nat) → (schemePrefix : UInt8) → MiniscriptRun)
  | done (node : Option (Except String (List CPubKey → Bytes)))

/-- `DecodeSecret` and `miniscript::FromString`. -/
class DescriptorTexts where
  decodeSecret : Text → Option CKey
  miniscript : Text → MiniscriptRun

/-- The contexts that `ParseScript` is called with. -/
inductive ParseScriptContext where
  | top
  | p2sh
  | p2wsh
deriving DecidableEq, Repr

namespace PubkeyProvider

def getSize : PubkeyProvider → Nat
  | const _ pubkey => pubkey.vch.length
  | pqhd _ _ _ _ schemePrefix => pubKeyLen schemePrefix

def getSchemePrefix : PubkeyProvider → Option UInt8
  | const _ pubkey => pubkey.vch.head?
  | pqhd _ _ _ _ schemePrefix => some schemePrefix

end PubkeyProvider

namespace DescriptorParser

open Text

/-- `ParseKeyPathNum`. -/
def parseKeyPathNum (elem : Text) : Except String UInt32 :=
  let isHardened : Bool := elem.getLast? = some '\x27' ∨ elem.getLast? = some 'h'
  let elem := if isHardened then elem.dropLast else elem
  match toIntegral elem with
  | none => .error ("Key path value '" ++ String.ofList elem ++ "' is not a valid uint32")
  | some p =>
    if p > 0x7fffffff then .error ("Key path value " ++ toString p ++ " is out of range")
    else .ok (p ||| if isHardened then Pqhd.hardened else 0)

/-- The loop over the path of a `pqhd()` key: its numbers, and whether it ends in a wildcard. -/
def parsePath : List Text → Except String (List UInt32 × Bool)
  | [] => .ok ([], false)
  | elem :: rest =>
    if elem.length ≥ 2 ∧ elem.head? = some '<' ∧ elem.getLast? = some '>' then
      .error "pqhd() does not support multipath derivation"
    else if rest = [] ∧ (elem = "*h".toList ∨ elem = "*'".toList) then .ok ([], true)
    else do
      let v ← parseKeyPathNum elem
      if v >>> 31 = 0 then throw "pqhd() derivation must be hardened-only"
      let (path, wildcard) ← parsePath rest
      return (v :: path, wildcard)

/-- `check_eq`. -/
def checkEq (path : List UInt32) (idx : Nat) (expected : UInt32) (name : String) :
    Except String Unit :=
  let v := Pqhd.masked (path.getD idx 0)
  require (v = expected)
    ("pqhd() " ++ name ++ " must be " ++ toString expected ++ ", got " ++ toString v)

/-- The key expression `pqhd(SEED)/…`: the seed, the path, the way the last key is derived and the
scheme, for the text in the brackets and the elements of the path. -/
def parsePqhd (seedHex : Text) (elements : List Text) :
    Except String (Uint256 × List UInt32 × DeriveType × UInt8) := do
  let some seedId := uint256FromHex seedHex
    | throw ("pqhd() seed id is not 32-byte hex (" ++ toString seedHex.length ++ " characters)")
  require (elements.length = 6)
    ("pqhd() expects 6 hardened path elements after the seed id, got " ++
      toString elements.length)
  let (path, wildcard) ← parsePath elements
  require (wildcard → path.length = 5)
    "pqhd() wildcard form must have exactly 5 fixed elements before *h"
  require (¬wildcard → path.length = 6)
    "pqhd() fixed form must have exactly 6 hardened path elements"
  checkEq path 0 Pqhd.purpose "purpose"
  checkEq path 1 Pqhd.coinType "coin_type"
  let scheme := Pqhd.masked (path.getD 2 0)
  require (scheme ≤ 0xff) ("pqhd() scheme id must fit in uint8, got " ++ toString scheme)
  require (schemeFromPrefix scheme.toUInt8).isSome
    ("pqhd() scheme id " ++ toString scheme ++ " is not recognized")
  let change := Pqhd.masked (path.getD 4 0)
  require (change ≤ 1) ("pqhd() change must be 0 or 1, got " ++ toString change)
  return (seedId, path, if wildcard then .hardened else .no, scheme.toUInt8)

/-- The check of the scheme that is made of every key. -/
def requireScheme (schemePrefix : Option UInt8) : Except String UInt8 :=
  match schemePrefix.filter fun byte => (schemeFromPrefix byte).isSome with
  | none => .error "Pubkey must include a valid PQ scheme prefix"
  | some byte => .ok byte

variable [DescriptorTexts]

/-- A key that is written out, in hexadecimal digits or as a secret key. -/
def parseConst (str : Text) : Except String CPubKey :=
  match parseHex str with
  | some data => do
      let pubkey := CPubKey.set data
      require (pubkey.isValid → (pubkey.vch.head?.bind schemeFromPrefix).isSome)
        "Hybrid public keys are not allowed"
      require pubkey.isValid ("Pubkey '" ++ String.ofList str ++ "' is invalid")
      let _ ← requireScheme pubkey.vch.head?
      return pubkey
  | none =>
    match DescriptorTexts.decodeSecret str with
    | some key => do
        let _ ← requireScheme key.pubkey.vch.head?
        return key.pubkey
    | none =>
      .error "Pubkey must be raw PQ prefixed hex (WIF private keys are not supported)"

def parsePubkeyInner (keyExpIndex : Nat) (sp : Text) : Except String PubkeyProvider :=
  let split := sp.splitOn '/'
  let str := split.headD []
  if str = [] then .error "No key provided"
  else if str.head?.any isSpace ∨ str.getLast?.any isSpace then
    .error ("Key '" ++ String.ofList str ++ "' is invalid due to whitespace")
  else if split.length = 1 then do
    let pubkey ← parseConst str
    return .const keyExpIndex pubkey
  else match func "pqhd" str with
    | some seedHex => do
        let (seedId, path, derive, schemePrefix) ← parsePqhd seedHex split.tail
        return .pqhd keyExpIndex seedId path derive schemePrefix
    | none => .error ("key '" ++ String.ofList str ++ "' is not valid")

def parsePubkey (keyExpIndex : Nat) (sp : Text) : Except String PubkeyProvider :=
  if sp.head? = some '[' then .error "Key origin metadata is not supported"
  else do
    let key ← parsePubkeyInner keyExpIndex sp
    let _ ← requireScheme key.getSchemePrefix
    return key

/-- `KeyParser`: the run of the miniscript parser, which numbers its keys from `m_offset` on. -/
def keyParser (offset : Nat) : MiniscriptRun → (keys : List PubkeyProvider) →
    Except String (Option (Except String (List CPubKey → Bytes)) × List PubkeyProvider)
  | .done node, keys => .ok (node, keys)
  | .key text next, keys => do
      let key ← parsePubkey (offset + keys.length) text
      let schemePrefix ← requireScheme key.getSchemePrefix
      keyParser offset (next key.getSize schemePrefix) (keys ++ [key])

/-- What `ParseScript` makes of an expression: the descriptor and the number of the next key. -/
abbrev Parsed := Except String (Descriptor × Nat)

/-- An expression of one key, with the beginning of its error texts. -/
def parseKey (name : String) (keyExpIndex : Nat) (text : Text)
    (make : PubkeyProvider → Descriptor) : Parsed := do
  let key ← (parsePubkey keyExpIndex text).mapError (name ++ ·)
  return (make key, keyExpIndex + 1)

/-- The loop over the keys of `multi()`. -/
def parseMultiKeys (keyExpIndex : Nat) : List (Char × Text) → Except String (List PubkeyProvider)
  | [] => .ok []
  | (separator, arg) :: rest =>
    if separator ≠ ',' then
      .error ("Multi: expected ',', got '" ++ separator.toString ++ "'")
    else do
      let key ← (parsePubkey keyExpIndex arg).mapError ("Multi: " ++ ·)
      let keys ← parseMultiKeys (keyExpIndex + 1) rest
      return key :: keys

/-- `push_size`. -/
def pushSize (len : Nat) : Nat :=
  if len < 0x4c then 1 else if len ≤ 0xff then 2 else if len ≤ 0xffff then 3 else 5

/-- The checks of `multi()` and `sortedmulti()`. -/
def checkMulti (ctx : ParseScriptContext) (thres : UInt32) (keys : List PubkeyProvider) :
    Except String Unit := do
  let scriptSize := (keys.map fun key => pushSize key.getSize + key.getSize).sum
  require (keys ≠ [] ∧ keys.length ≤ maxPubkeysPerMultisig) ("Cannot have " ++
    toString keys.length ++ " keys in multisig; must have between 1 and " ++
    toString maxPubkeysPerMultisig ++ " keys, inclusive")
  require (thres ≥ 1)
    ("Multisig threshold cannot be " ++ toString thres ++ ", must be at least 1")
  require (thres.toNat ≤ keys.length)
    ("Multisig threshold cannot be larger than the number of keys; threshold is " ++
      toString thres ++ " but only " ++ toString keys.length ++ " keys specified")
  require (ctx = .top → keys.length ≤ 3) ("Cannot have " ++ toString keys.length ++
    " pubkeys in bare multisig; only at most 3 pubkeys")
  require (ctx = .p2sh → scriptSize + 3 ≤ maxScriptElementSize)
    ("P2SH script is too large, " ++ toString (scriptSize + 3) ++ " bytes is larger than " ++
      toString maxScriptElementSize ++ " bytes")

def parseThreshold (threshold : Text) : Except String UInt32 :=
  match toIntegral threshold with
  | some thres => .ok thres
  | none => .error ("Multi threshold '" ++ String.ofList threshold ++ "' is not valid")

def parseMulti (ctx : ParseScriptContext) (keyExpIndex : Nat) (sorted : Bool) (text : Text) :
    Parsed := do
  let (threshold, args) := exprs 0 text
  let thres ← parseThreshold threshold
  let keys ← parseMultiKeys keyExpIndex args
  checkMulti ctx thres keys
  return (.multi thres.toNat sorted keys, keyExpIndex + keys.length)

/-- An expression around another one, which has to end where the brackets do. -/
def parseSub (sub : Except String (Descriptor × Nat × Text)) (make : Descriptor → Descriptor) :
    Parsed := do
  let (desc, next, rest) ← sub
  require (rest = []) ""
  return (make desc, next)

def parseMiniscript (ctx : ParseScriptContext) (keyExpIndex : Nat) (expr : Text) : Parsed := do
  let (node, keys) ← keyParser keyExpIndex (DescriptorTexts.miniscript expr) []
  match node, ctx with
  | some node, .p2wsh => do
      let toScript ← node
      return (.miniscript keys toScript, keyExpIndex + keys.length)
  | some _, _ => .error "Miniscript expressions can only be used in wsh()/wsh512()."
  | none, .p2sh => .error "A function is needed within P2SH"
  | none, .p2wsh => .error "A function is needed within wsh()/wsh512()"
  | none, .top => .error ("'" ++ String.ofList expr ++ "' is not a valid descriptor function")

variable [Crypto] (params : AddressParams)

def parseAddr (keyExpIndex : Nat) (text : Text) : Parsed :=
  match params.decodeDestination (text.map fun c => UInt8.ofNat c.toNat) with
  | .noDestination _ | .pubKeyDestination _ => .error "Address is not valid"
  | destination => .ok (.addr destination, keyExpIndex)

/-- `ParseScript` for the expression at the start of the text, with the parser of the scripts inside
other scripts. -/
def parseExpr
    (parseScript : ParseScriptContext → Nat → Text → Except String (Descriptor × Nat × Text))
    (ctx : ParseScriptContext) (keyExpIndex : Nat) (expr : Text) : Parsed :=
  if let some text := func "pk" expr then parseKey "pk(): " keyExpIndex text .pk
  else if let some text := func "pkh" expr then parseKey "pkh(): " keyExpIndex text .pkh
  else if let some text := func "combo" expr then
    if ctx = .top then parseKey "combo(): " keyExpIndex text .combo
    else .error "Can only have combo() at top level"
  else if let some text := func "multi" expr then parseMulti ctx keyExpIndex false text
  else if let some text := func "sortedmulti" expr then parseMulti ctx keyExpIndex true text
  else if let some text := func "wpkh" expr then
    if ctx ≠ .p2wsh then parseKey "wpkh(): " keyExpIndex text .wpkh
    else .error "Can only have wpkh() at top level or inside sh()"
  else if let some text := func "sh" expr then
    if ctx = .top then parseSub (parseScript .p2sh keyExpIndex text) .sh
    else .error "Can only have sh() at top level"
  else if let some text := func "wsh" expr then
    if ctx ≠ .p2wsh then parseSub (parseScript .p2wsh keyExpIndex text) .wsh
    else .error "Can only have wsh() at top level or inside sh()"
  else if let some text := func "wsh512" expr then
    if ctx ≠ .p2wsh then parseSub (parseScript .p2wsh keyExpIndex text) .wsh512
    else .error "Can only have wsh512() at top level or inside sh()"
  else if let some text := func "addr" expr then
    if ctx = .top then parseAddr params keyExpIndex text
    else .error "Can only have addr() at top level"
  else if let some text := func "raw" expr then
    if ctx ≠ .top then .error "Can only have raw() at top level"
    else match parseHex text with
      | none => .error "Raw script is not hex"
      | some bytes => .ok (.raw bytes, keyExpIndex)
  else parseMiniscript ctx keyExpIndex expr

/-- The body of `ParseScript`: the descriptor, the number of the next key and the text that is
left. -/
def scriptIn
    (parseScript : ParseScriptContext → Nat → Text → Except String (Descriptor × Nat × Text))
    (ctx : ParseScriptContext) (keyExpIndex : Nat) (sp : Text) :
    Except String (Descriptor × Nat × Text) := do
  let expr := (exprs 0 sp).1
  let (desc, next) ← parseExpr params parseScript ctx keyExpIndex expr
  return (desc, next, sp.drop expr.length)

/-- `ParseScript` in `wsh()` and `wsh512()`, where no other script is parsed. -/
def parseWitnessScript (keyExpIndex : Nat) (sp : Text) : Except String (Descriptor × Nat × Text) :=
  scriptIn params (fun _ _ _ => .error "") .p2wsh keyExpIndex sp

/-- `ParseScript` in `sh()`, where those of witnesses are. -/
def parseRedeemScript (keyExpIndex : Nat) (sp : Text) : Except String (Descriptor × Nat × Text) :=
  scriptIn params (fun _ => parseWitnessScript params) .p2sh keyExpIndex sp

/-- `ParseScript` at the top level. -/
def parseScript (keyExpIndex : Nat) (sp : Text) : Except String (Descriptor × Nat × Text) :=
  scriptIn params (fun ctx => match ctx with
    | .p2sh => parseRedeemScript params
    | _ => parseWitnessScript params) .top keyExpIndex sp

/-- `Parse`, for a text whose checksum was taken off. -/
def parse (sp : Text) : Except String Descriptor := do
  let (desc, _, rest) ← parseScript params 0 sp
  require (rest = []) ""
  return desc

/-! ### The numbers of the keys -/

/-- The keys of a descriptor have the numbers from the first one up to the next one. -/
def Numbers (first : Nat) (desc : Descriptor) (next : Nat) : Prop :=
  ∃ count, next = first + count ∧
    desc.pubkeyArgs.map PubkeyProvider.getExpressionIndex = List.range' first count

section

variable {params} {first next : Nat} {text rest : Text} {desc : Descriptor}

omit [Crypto]

lemma parsePubkey_index {key : PubkeyProvider} (h : parsePubkey first text = .ok key) :
    key.getExpressionIndex = first := by
  unfold parsePubkey at h
  split at h
  · cases h
  obtain ⟨inner, hinner, h⟩ := bind_eq_ok.1 h
  obtain ⟨_, -, h⟩ := bind_eq_ok.1 h
  cases h
  unfold parsePubkeyInner at hinner
  dsimp only at hinner
  split at hinner
  · cases hinner
  split at hinner
  · cases hinner
  split at hinner
  · obtain ⟨pubkey, -, h⟩ := bind_eq_ok.1 hinner
    cases h
    rfl
  split at hinner
  · obtain ⟨parts, -, h⟩ := bind_eq_ok.1 hinner
    cases h
    rfl
  · cases hinner

lemma parseKey_numbers {name : String} {make : PubkeyProvider → Descriptor}
    (hmake : ∀ key, (make key).pubkeyArgs = [key])
    (h : parseKey name first text make = .ok (desc, next)) : Numbers first desc next := by
  obtain ⟨key, hkey, h⟩ := bind_eq_ok.1 h
  cases h
  refine ⟨1, rfl, ?_⟩
  rw [hmake, List.map_singleton, parsePubkey_index (mapError_eq_ok.1 hkey)]
  rfl

lemma parseMultiKeys_numbers {args : List (Char × Text)} {keys : List PubkeyProvider}
    (h : parseMultiKeys first args = .ok keys) :
    keys.map PubkeyProvider.getExpressionIndex = List.range' first keys.length := by
  induction args generalizing first keys with
  | nil =>
    cases h
    rfl
  | cons arg args ih =>
    rw [parseMultiKeys] at h
    split at h
    · cases h
    obtain ⟨key, hkey, h⟩ := bind_eq_ok.1 h
    obtain ⟨others, hothers, h⟩ := bind_eq_ok.1 h
    cases h
    rw [List.map_cons, ih hothers, parsePubkey_index (mapError_eq_ok.1 hkey)]
    rfl

lemma parseMulti_numbers {ctx : ParseScriptContext} {sorted : Bool}
    (h : parseMulti ctx first sorted text = .ok (desc, next)) : Numbers first desc next := by
  obtain ⟨thres, -, h⟩ := bind_eq_ok.1 h
  obtain ⟨keys, hkeys, h⟩ := bind_eq_ok.1 h
  obtain ⟨_, -, h⟩ := bind_eq_ok.1 h
  cases h
  exact ⟨keys.length, rfl, parseMultiKeys_numbers hkeys⟩

/-- The keys of a miniscript follow each other, however the parser goes on after a key. -/
lemma keyParser_numbers {run : MiniscriptRun} {before keys : List PubkeyProvider}
    {node : Option (Except String (List CPubKey → Bytes))}
    (hbefore : before.map PubkeyProvider.getExpressionIndex = List.range' first before.length)
    (h : keyParser first run before = .ok (node, keys)) :
    keys.map PubkeyProvider.getExpressionIndex = List.range' first keys.length := by
  induction run generalizing before with
  | done =>
    cases h
    exact hbefore
  | key asked after ih =>
    obtain ⟨key, hkey, h⟩ := bind_eq_ok.1 h
    obtain ⟨schemePrefix, -, h⟩ := bind_eq_ok.1 h
    refine ih _ _ ?_ h
    rw [List.map_append, hbefore, List.map_singleton, parsePubkey_index hkey, List.length_append,
      List.length_singleton, List.range'_concat, Nat.one_mul]

lemma parseMiniscript_numbers {ctx : ParseScriptContext}
    (h : parseMiniscript ctx first text = .ok (desc, next)) : Numbers first desc next := by
  obtain ⟨⟨node, keys⟩, hkeys, h⟩ := bind_eq_ok.1 h
  dsimp only at h
  split at h
  · obtain ⟨toScript, -, h⟩ := bind_eq_ok.1 h
    cases h
    exact ⟨keys.length, rfl, keyParser_numbers rfl hkeys⟩
  all_goals cases h

omit [DescriptorTexts] in
lemma parseSub_numbers (make : Descriptor → Descriptor)
    {sub : Except String (Descriptor × Nat × Text)}
    (hmake : ∀ desc, (make desc).pubkeyArgs = desc.pubkeyArgs)
    (hsub : ∀ desc next rest, sub = .ok (desc, next, rest) → Numbers first desc next)
    (h : parseSub sub make = .ok (desc, next)) : Numbers first desc next := by
  obtain ⟨⟨inner, last, rest⟩, hinner, h⟩ := bind_eq_ok.1 h
  obtain ⟨_, -, h⟩ := bind_eq_ok.1 h
  cases h
  obtain ⟨count, hnext, hnumbers⟩ := hsub _ _ _ hinner
  exact ⟨count, hnext, by rw [hmake, hnumbers]⟩

end

section

variable {params} {first next : Nat} {text rest : Text} {desc : Descriptor}

omit [DescriptorTexts] in
lemma parseAddr_numbers (h : parseAddr params first text = .ok (desc, next)) :
    Numbers first desc next := by
  unfold parseAddr at h
  split at h
  · cases h
  · cases h
  · cases h
    exact ⟨0, rfl, rfl⟩

section

variable {parseScript : ParseScriptContext → Nat → Text → Except String (Descriptor × Nat × Text)}
  (hscript : ∀ ctx first text desc next rest,
    parseScript ctx first text = .ok (desc, next, rest) → Numbers first desc next)
  {ctx : ParseScriptContext}
include hscript

/-- Every function numbers its keys from the number it is given, and says where to go on. -/
theorem parseExpr_numbers (h : parseExpr params parseScript ctx first text = .ok (desc, next)) :
    Numbers first desc next := by
  unfold parseExpr at h
  split at h
  · exact parseKey_numbers (fun _ => rfl) h
  split at h
  · exact parseKey_numbers (fun _ => rfl) h
  split at h
  · split at h
    · exact parseKey_numbers (fun _ => rfl) h
    · cases h
  split at h
  · exact parseMulti_numbers h
  split at h
  · exact parseMulti_numbers h
  split at h
  · split at h
    · exact parseKey_numbers (fun _ => rfl) h
    · cases h
  split at h
  · split at h
    · exact parseSub_numbers .sh (fun _ => rfl) (hscript _ _ _) h
    · cases h
  split at h
  · split at h
    · exact parseSub_numbers .wsh (fun _ => rfl) (hscript _ _ _) h
    · cases h
  split at h
  · split at h
    · exact parseSub_numbers .wsh512 (fun _ => rfl) (hscript _ _ _) h
    · cases h
  split at h
  · split at h
    · exact parseAddr_numbers h
    · cases h
  split at h
  · split at h
    · cases h
    · split at h
      · cases h
      · cases h
        exact ⟨0, rfl, rfl⟩
  · exact parseMiniscript_numbers h

lemma scriptIn_numbers (h : scriptIn params parseScript ctx first text = .ok (desc, next, rest)) :
    Numbers first desc next := by
  obtain ⟨⟨parsed, last⟩, hparsed, h⟩ := bind_eq_ok.1 h
  cases h
  exact parseExpr_numbers hscript hparsed

end

theorem parseScript_numbers (h : parseScript params first text = .ok (desc, next, rest)) :
    Numbers first desc next := by
  have hwitness : ∀ first text desc next rest,
      parseWitnessScript params first text = .ok (desc, next, rest) → Numbers first desc next :=
    fun _ _ _ _ _ hparse => scriptIn_numbers (fun _ _ _ _ _ _ hsub => by cases hsub) hparse
  have hredeem : ∀ first text desc next rest,
      parseRedeemScript params first text = .ok (desc, next, rest) → Numbers first desc next :=
    fun _ _ _ _ _ hparse => scriptIn_numbers (fun _ => hwitness) hparse
  refine scriptIn_numbers (fun ctx => ?_) h
  cases ctx with
  | p2sh => exact hredeem
  | top => exact hwitness
  | p2wsh => exact hwitness

/-- The keys of a parsed descriptor have the numbers `0, 1, …` in the order they are written. -/
theorem parse_numbers (h : parse params text = .ok desc) :
    desc.pubkeyArgs.map PubkeyProvider.getExpressionIndex =
      List.range desc.pubkeyArgs.length := by
  obtain ⟨⟨parsed, next, rest⟩, hparse, h⟩ := bind_eq_ok.1 h
  obtain ⟨_, -, h⟩ := bind_eq_ok.1 h
  cases h
  obtain ⟨count, -, hnumbers⟩ := parseScript_numbers hparse
  have hcount : desc.pubkeyArgs.length = count := by
    rw [← List.length_map (f := PubkeyProvider.getExpressionIndex), hnumbers, List.length_range']
  rw [hnumbers, hcount, List.range_eq_range']

end

end DescriptorParser

namespace Descriptor

variable [Crypto] [DescriptorTexts]

/-- The descriptors there are: those the parser makes, and those with keys that are written out
only, as `InferDescriptor` makes them. -/
def Built (params : AddressParams) (desc : Descriptor) : Prop :=
  (∃ text, DescriptorParser.parse params text = .ok desc) ∨
    ∀ key ∈ desc.pubkeyArgs, ∃ exprIndex pubkey, key = .const exprIndex pubkey

lemma Built.numbered {params : AddressParams} {desc : Descriptor} (hbuilt : desc.Built params) :
    desc.Numbered := by
  rcases hbuilt with ⟨text, hparse⟩ | hconst
  · have hnodup : (desc.pubkeyArgs.map PubkeyProvider.getExpressionIndex).Nodup := by
      rw [DescriptorParser.parse_numbers hparse]
      exact List.nodup_range
    exact (List.pairwise_map.1 hnodup).imp fun hne _ _ => hne
  · refine List.pairwise_iff_forall_sublist.2 fun {key other} hsub hderived => ?_
    obtain ⟨exprIndex, pubkey, rfl⟩ := hconst key (hsub.subset List.mem_cons_self)
    cases hderived

variable [PqhdKeys]

/-- An expansion that succeeds is read back from the cache it has written, and from every cache that
merging makes of it: the scripts and the public material are the same. -/
theorem expandFromCache_of_expand {params : AddressParams} (desc : Descriptor)
    (hbuilt : desc.Built params) (pos : Int) (provider : SeedSource)
    (writeCache : DescriptorCache) (expanded : Expanded (List Bytes))
    (hexpand : desc.expandHelper pos provider none .empty writeCache = some expanded)
    (cache : DescriptorCache) (hcache : expanded.writeCache.MergedFrom cache) :
    desc.expandFromCache pos cache = some (expanded.result, expanded.out) := by
  obtain ⟨sub, hsub, hwritten, hagain⟩ := desc.expandHelper_getPubKeys hexpand
  have hextends := hcache.extends
  rw [hwritten] at hextends
  rw [expandFromCache, hagain _ _ _ _
    ((PubkeyProvider.getPubKeys_cached hbuilt.numbered hsub).2 cache hextends)]
  rfl

omit [Crypto] [DescriptorTexts] [PqhdKeys] in
/-- A fixed and a ranged key of one seed are parsed, expanded at two positions and read back at the
first one from a cache that has the keys of both. -/
theorem expandFromCache_of_expand_parsed :
    let _ : PqhdKeys :=
      ⟨fun _ path => some (List.replicate 897 (path.getLastD 0).toUInt8, []), fun _ => 0⟩
    let _ : DescriptorTexts := ⟨fun _ => none, fun _ => .done none⟩
    let key := "pqhd(".toList ++ List.replicate 63 '0' ++ "1)/10007h/6868h/7h/0h/0h/".toList
    let text := "sortedmulti(1,".toList ++ key ++ "0h,".toList ++ key ++ "*h)".toList
    let provider : SeedSource := fun _ => some []
    ∃ desc expanded other merged, @DescriptorParser.parse _ .digits .main text = .ok desc ∧
      desc.pubkeyArgs.map PubkeyProvider.getExpressionIndex = [0, 1] ∧
      @expand .digits _ desc 5 provider = some expanded ∧
      @expand .digits _ desc 6 provider = some other ∧
      other.writeCache.mergeAndDiff expanded.writeCache = some merged ∧ merged.1.keys.length = 3 ∧
      @expandFromCache .digits _ desc 5 merged.1 = some (expanded.result, expanded.out) := by
  intro _ _ key text provider
  have hmerge : ((@DescriptorParser.parse _ .digits .main text).toOption.bind fun desc =>
      (@expand .digits _ desc 5 provider).bind fun expanded =>
        (@expand .digits _ desc 6 provider).bind fun other =>
          (other.writeCache.mergeAndDiff expanded.writeCache).map fun merged =>
            (desc.pubkeyArgs.map PubkeyProvider.getExpressionIndex, merged.1.keys.length)) =
      some ([0, 1], 3) := by
    decide +kernel
  simp only [Option.bind_eq_some_iff, Option.map_eq_some_iff, Prod.mk.injEq] at hmerge
  obtain ⟨desc, hdesc, expanded, hexpand, other, hother, merged, hmerged, hnumbers, hlength⟩ :=
    hmerge
  have hparse : @DescriptorParser.parse _ .digits .main text = .ok desc := by
    revert hdesc
    cases @DescriptorParser.parse _ .digits .main text with
    | error => exact fun hdesc => nomatch hdesc
    | ok found => exact fun hdesc => congrArg _ (Option.some.inj hdesc)
  refine ⟨desc, expanded, other, merged, hparse, hnumbers, hexpand, hother, hmerged, hlength, ?_⟩
  exact @expandFromCache_of_expand .digits _ _ .main desc (.inl ⟨text, hparse⟩) 5 provider ∅
    expanded hexpand merged.1 (.mergeInto .written hmerged)

end Descriptor

end Tidecoin
