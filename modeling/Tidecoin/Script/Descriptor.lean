import Mathlib.Data.List.AList
import Tidecoin.Params
import Tidecoin.Script.Solver

/-!
Output descriptors: `script/descriptor.cpp`. A descriptor is a tree of script expressions over key
expressions. A key is written out, or it is derived from a seed of the wallet along a hardened path,
and a derived key can be read from a cache instead of being derived again.

The derivation of a leaf key from a seed (`pq/pqhd_kdf.cpp` and the key generation) is a parameter,
as is the script a miniscript expression makes of its keys. Maps are association lists without
duplicate keys.
-/

namespace Tidecoin

open Lib Script

structure PQHDKeyPathInfo where
  seedId : Uint256
  path : List UInt32
  isRange : Bool
deriving DecidableEq, Repr

/-- `DescriptorCache`: the derived keys by key expression and position. -/
abbrev DescriptorCache := AList fun _ : Nat × Nat => CPubKey

namespace DescriptorCache

section

variable (cache : DescriptorCache) (keyExpPos derIndex : Nat)

def cacheDerivedPubKey (pubkey : CPubKey) : DescriptorCache :=
  cache.insert (keyExpPos, derIndex) pubkey

def getCachedDerivedPubKey : Option CPubKey :=
  cache.lookup (keyExpPos, derIndex)

end

/-- One round of `MergeAndDiff`: a key the cache does not have goes into it and into the difference,
and a key it has must be the same. -/
def mergeEntry (merged : DescriptorCache × DescriptorCache)
    (entry : Sigma fun _ : Nat × Nat => CPubKey) : Option (DescriptorCache × DescriptorCache) :=
  (getCachedDerivedPubKey merged.1 entry.1.1 entry.1.2).elim
    (some (cacheDerivedPubKey merged.1 entry.1.1 entry.1.2 entry.2,
      cacheDerivedPubKey merged.2 entry.1.1 entry.1.2 entry.2))
    fun pubkey => if pubkey ≠ entry.2 then none else some merged

/-- `MergeAndDiff`: the merged cache and what is new in it. It throws where the caches disagree. -/
def mergeAndDiff (cache other : DescriptorCache) : Option (DescriptorCache × DescriptorCache) :=
  other.entries.foldlM mergeEntry (cache, ∅)

end DescriptorCache

/-- `CKey`: the secret bytes and the public key they belong to. -/
structure CKey where
  keydata : Bytes
  pubkey : CPubKey
deriving DecidableEq, Repr

section

variable {κ : Type} [DecidableEq κ] {ν : Type}

section

variable (map : AList fun _ : κ => ν) (key : κ) (value : ν)

/-- `std::map::emplace`: an entry that is there stays. -/
def emplace : AList fun _ : κ => ν :=
  if key ∈ map then map else map.insert key value

lemma lookup_emplace (other : κ) : (emplace map key value).lookup other =
      (map.lookup other).or (if other = key then some value else none) := by
  unfold emplace
  by_cases heq : other = key
  · subst heq
    split
    case isTrue hmem =>
      obtain ⟨old, hold⟩ := Option.isSome_iff_exists.1 (AList.lookup_isSome.2 hmem)
      simp [hold]
    case isFalse hmem => simp [AList.lookup_eq_none.2 hmem]
  · split
    · simp
    · simp [AList.lookup_insert_ne heq]

end

/-- `std::map::merge`. -/
def mergeMap (map other : AList fun _ : κ => ν) : AList fun _ : κ => ν :=
  other.entries.foldl (fun merged entry => emplace merged entry.1 entry.2) map

end

structure FlatSigningProvider where
  scripts : AList fun _ : Uint160 => Bytes
  pubkeys : AList fun _ : Uint160 => CPubKey
  keys : AList fun _ : Uint160 => CKey

namespace FlatSigningProvider

def empty : FlatSigningProvider := ⟨∅, ∅, ∅⟩

def merge (provider b : FlatSigningProvider) : FlatSigningProvider :=
  ⟨mergeMap provider.scripts b.scripts, mergeMap provider.pubkeys b.pubkeys,
    mergeMap provider.keys b.keys⟩

def emplaceScript (provider : FlatSigningProvider) (id : Uint160) (script : Bytes) :
    FlatSigningProvider :=
  { provider with scripts := emplace provider.scripts id script }

def emplacePubKey [Crypto] (provider : FlatSigningProvider) (pubkey : CPubKey) :
    FlatSigningProvider :=
  { provider with pubkeys := emplace provider.pubkeys pubkey.getID pubkey }

end FlatSigningProvider

/-- The derivation of keys from seeds: the raw public and secret key at a leaf of the tree of a
seed, and the id of a seed, `ComputeSeedID32AsUint256`. -/
class PqhdKeys where
  leaf : (masterSeed : Bytes) → (leafPath : List UInt32) → Option (Bytes × Bytes)
  seedID : (masterSeed : Bytes) → Uint256

/-- A choice that derives nothing. -/
@[reducible] def PqhdKeys.none : PqhdKeys := ⟨fun _ _ => Option.none, fun _ => 0⟩

/-- What a key expression asks a `SigningProvider` for: the seed of an id. -/
abbrev SeedSource := Uint256 → Option Bytes

namespace Pqhd

def hardened : UInt32 := 0x80000000

def purpose : UInt32 := 10007

def coinType : UInt32 := 6868

/-- The component without the mark of hardened derivation. -/
def masked (component : UInt32) : UInt32 := component &&& 0x7fffffff

def validateV1LeafPath (path : List UInt32) : Bool :=
  path.length = 6 && path.all (fun elem => elem &&& hardened ≠ 0) &&
    path[0]? = some (hardened ||| purpose) && path[1]? = some (hardened ||| coinType) &&
    (path[2]?.any fun elem => masked elem ≤ 0xff && (schemeFromPrefix (masked elem).toUInt8).isSome)
      &&
    (path[4]?.any fun elem => masked elem ≤ 1)

end Pqhd

inductive DeriveType where
  | no
  | hardened
deriving DecidableEq, Repr

/-- `ConstPubkeyProvider` and `PQHDPubkeyProvider`. -/
inductive PubkeyProvider where
  | const (exprIndex : Nat) (pubkey : CPubKey)
  | pqhd (exprIndex : Nat) (seedId : Uint256) (path : List UInt32) (derive : DeriveType)
      (schemePrefix : UInt8)
deriving DecidableEq, Repr

/-- What an expansion gives: the result, the material to solve the scripts with, and the cache it
was to write. -/
structure Expanded (α : Type) where
  result : α
  out : FlatSigningProvider
  writeCache : DescriptorCache

namespace PubkeyProvider

def getExpressionIndex : PubkeyProvider → Nat
  | const exprIndex _ => exprIndex
  | pqhd exprIndex _ _ _ _ => exprIndex

def isRange : PubkeyProvider → Bool
  | const _ _ => false
  | pqhd _ _ _ derive _ => derive ≠ .no

def getPQHDKeyPathInfo : PubkeyProvider → Option PQHDKeyPathInfo
  | const _ _ => none
  | pqhd _ seedId path derive _ => some ⟨seedId, path, derive = .hardened⟩

def getPQHDSeedIDs : PubkeyProvider → List Uint256
  | const _ _ => []
  | pqhd _ seedId _ _ _ => [seedId]

/-- The full hardened path of the key at a position. -/
def leafPath (path : List UInt32) (derive : DeriveType) (pos : Nat) : Option (List UInt32) :=
  match derive with
  | .hardened =>
    if path.length ≠ 5 then none else some (path ++ [UInt32.ofNat pos ||| Pqhd.hardened])
  | .no => if path.length ≠ 6 then none else some path

variable [Crypto] [PqhdKeys]

/-- The key at a leaf of a seed's tree, with its secret: the derivation of `GetPubKey` and
`GetPrivKey`. -/
def deriveLeaf (masterSeed : Bytes) (path : List UInt32) (derive : DeriveType)
    (schemePrefix : UInt8) (pos : Nat) : Option CKey := do
  let leafPath ← leafPath path derive pos
  guard (Pqhd.validateV1LeafPath leafPath)
  let (pkRaw, skRaw) ← PqhdKeys.leaf masterSeed leafPath
  let pubkey := CPubKey.set (schemePrefix :: pkRaw)
  guard pubkey.isValid
  return ⟨skRaw, pubkey⟩

/-- The position of a key in the cache. -/
def derIndex (derive : DeriveType) (pos : Nat) : Nat := if derive = .no then 0 else pos

/-- `GetPubKey` of a key expression, from the cache if there is one to read. -/
def getPubKey (key : PubkeyProvider) (pos : Int) (arg : SeedSource) (out : FlatSigningProvider)
    (readCache : Option DescriptorCache) (writeCache : DescriptorCache) :
    Option (Expanded CPubKey) :=
  match key with
  | const _ pubkey => some ⟨pubkey, out.emplacePubKey pubkey, writeCache⟩
  | pqhd exprIndex seedId path derive schemePrefix =>
    if pos < 0 then none
    else
      let derIndex := derIndex derive pos.toNat
      match readCache with
      | some cache => do
          let cached ← cache.getCachedDerivedPubKey exprIndex derIndex
          guard (cached.isValid && cached.vch.head? = some schemePrefix)
          return ⟨cached, out.emplacePubKey cached, writeCache⟩
      | none => do
          let masterSeed ← arg seedId
          let key ← deriveLeaf masterSeed path derive schemePrefix pos.toNat
          return ⟨key.pubkey, out.emplacePubKey key.pubkey,
            writeCache.cacheDerivedPubKey exprIndex derIndex key.pubkey⟩

/-- The loop of `ExpandHelper` over the key arguments. -/
def getPubKeys : List PubkeyProvider → (pos : Int) → (arg : SeedSource) →
    (out : FlatSigningProvider) → (readCache : Option DescriptorCache) →
    (writeCache : DescriptorCache) → Option (Expanded (List CPubKey))
  | [], _, _, out, _, writeCache => some ⟨[], out, writeCache⟩
  | key :: keys, pos, arg, out, readCache, writeCache => do
      let first ← key.getPubKey pos arg out readCache writeCache
      let others ← getPubKeys keys pos arg first.out readCache first.writeCache
      return { others with result := first.result :: others.result }

end PubkeyProvider

/-- The descriptors, one constructor for each class. A miniscript expression is known by the script
it makes of its keys. -/
inductive Descriptor where
  | addr (destination : CTxDestination)
  | raw (script : Bytes)
  | pk (key : PubkeyProvider)
  | pkh (key : PubkeyProvider)
  | wpkh (key : PubkeyProvider)
  | combo (key : PubkeyProvider)
  | multi (threshold : Nat) (sorted : Bool) (keys : List PubkeyProvider)
  | sh (desc : Descriptor)
  | wsh (desc : Descriptor)
  | wsh512 (desc : Descriptor)
  | miniscript (keys : List PubkeyProvider) (toScript : List CPubKey → Bytes)

namespace Descriptor

/-- The key arguments, those of the sub-descriptor included. The traversals of the source go over
the own arguments first and then into the sub-descriptor, and no class has both. -/
def pubkeyArgs : Descriptor → List PubkeyProvider
  | addr _ | raw _ => []
  | pk key | pkh key | wpkh key | combo key => [key]
  | multi _ _ keys | miniscript keys _ => keys
  | sh desc | wsh desc | wsh512 desc => desc.pubkeyArgs

def isRange (desc : Descriptor) : Bool := desc.pubkeyArgs.any PubkeyProvider.isRange

def isSingleType : Descriptor → Bool
  | combo _ => false
  | _ => true

def getOutputType : Descriptor → Option OutputType
  | addr destination => outputTypeFromDestination destination
  | raw script => outputTypeFromDestination (extractDestination script).1
  | pkh _ => some .legacy
  | wpkh _ => some .bech32
  | sh desc =>
    if desc.getOutputType = some .bech32 ∨ desc.getOutputType = some .bech32pq then
      some .p2shSegwit
    else some .legacy
  | wsh _ => some .bech32
  | wsh512 _ => some .bech32pq
  | pk _ | combo _ | multi _ _ _ | miniscript _ _ => none

def getPQHDSeedIDs (desc : Descriptor) : List Uint256 :=
  desc.pubkeyArgs.flatMap PubkeyProvider.getPQHDSeedIDs

/-- `GetPQHDKeyPaths`: the paths by key expression. -/
def getPQHDKeyPaths (desc : Descriptor) : AList fun _ : Nat => PQHDKeyPathInfo :=
  desc.pubkeyArgs.foldl (fun paths key =>
    key.getPQHDKeyPathInfo.elim paths fun path => emplace paths key.getExpressionIndex path) ∅

/-- `GetPQHDKeyPathInfo`: the one path all derived keys have. -/
def getPQHDKeyPathInfo (desc : Descriptor) : Option PQHDKeyPathInfo :=
  let infos := desc.pubkeyArgs.filterMap PubkeyProvider.getPQHDKeyPathInfo
  infos.head?.filter fun info => infos.all fun candidate => candidate = info

variable [Crypto] [PqhdKeys]

/-- The expansion of an expression of one key. -/
def expandKey (key : PubkeyProvider) (pos : Int) (arg : SeedSource)
    (readCache : Option DescriptorCache) (out : FlatSigningProvider) (writeCache : DescriptorCache)
    (makeScripts : CPubKey → FlatSigningProvider → List Bytes × FlatSigningProvider) :
    Option (Expanded (List Bytes)) := do
  let sub ← key.getPubKey pos arg .empty readCache writeCache
  let (scripts, out) := makeScripts sub.result (out.merge sub.out)
  return ⟨scripts, out, sub.writeCache⟩

/-- The expansion of an expression around a sub-descriptor, which makes one script. -/
def expandSub (expanded : Option (Expanded (List Bytes))) (out : FlatSigningProvider)
    (destination : Bytes → CTxDestination) (id : Bytes → Uint160) :
    Option (Expanded (List Bytes)) := do
  let sub ← expanded
  let script ← sub.result.head?
  return ⟨[getScriptForDestination (destination script)],
    (out.merge sub.out).emplaceScript (id script) script, sub.writeCache⟩

/-- The scripts of `combo(KEY)`. -/
def makeComboScripts (key : CPubKey) (out : FlatSigningProvider) :
    List Bytes × FlatSigningProvider :=
  let id := key.getID
  let p2wpkh := getScriptForDestination (.witnessV0KeyHash id)
  ([getScriptForRawPubKey key, getScriptForDestination (.pkHash id), p2wpkh,
      getScriptForDestination (.scriptHash (scriptID p2wpkh))],
    out.emplaceScript (scriptID p2wpkh) p2wpkh)

/-- `std::sort` of the keys by their bytes. -/
def sortKeys (keys : List CPubKey) : List CPubKey := keys.insertionSort fun a b => a.vch ≤ b.vch

def expandHelper : Descriptor → (pos : Int) → (arg : SeedSource) →
    (readCache : Option DescriptorCache) → (out : FlatSigningProvider) →
    (writeCache : DescriptorCache) → Option (Expanded (List Bytes))
  | addr destination, _, _, _, out, writeCache =>
    some ⟨[getScriptForDestination destination], out, writeCache⟩
  | raw script, _, _, _, out, writeCache => some ⟨[script], out, writeCache⟩
  | pk key, pos, arg, readCache, out, writeCache =>
    expandKey key pos arg readCache out writeCache fun pubkey out =>
      ([getScriptForRawPubKey pubkey], out)
  | pkh key, pos, arg, readCache, out, writeCache =>
    expandKey key pos arg readCache out writeCache fun pubkey out =>
      ([getScriptForDestination (.pkHash pubkey.getID)], out)
  | wpkh key, pos, arg, readCache, out, writeCache =>
    expandKey key pos arg readCache out writeCache fun pubkey out =>
      ([getScriptForDestination (.witnessV0KeyHash pubkey.getID)], out)
  | combo key, pos, arg, readCache, out, writeCache =>
    expandKey key pos arg readCache out writeCache makeComboScripts
  | multi threshold sorted keys, pos, arg, readCache, out, writeCache => do
      let sub ← PubkeyProvider.getPubKeys keys pos arg .empty readCache writeCache
      return ⟨[getScriptForMultisig threshold (if sorted then sortKeys sub.result else sub.result)],
        out.merge sub.out, sub.writeCache⟩
  | miniscript keys toScript, pos, arg, readCache, out, writeCache => do
      let sub ← PubkeyProvider.getPubKeys keys pos arg .empty readCache writeCache
      return ⟨[toScript sub.result],
        sub.result.foldl FlatSigningProvider.emplacePubKey (out.merge sub.out), sub.writeCache⟩
  | sh desc, pos, arg, readCache, out, writeCache =>
    expandSub (desc.expandHelper pos arg readCache .empty writeCache) out
      (fun script => .scriptHash (scriptID script)) scriptID
  | wsh desc, pos, arg, readCache, out, writeCache =>
    expandSub (desc.expandHelper pos arg readCache .empty writeCache) out
      (fun script => .witnessV0ScriptHash (witnessV0ScriptHash script)) scriptID
  | wsh512 desc, pos, arg, readCache, out, writeCache =>
    expandSub (desc.expandHelper pos arg readCache .empty writeCache) out
      (fun script => .witnessV1ScriptHash512 (witnessV1ScriptHash512 script))
      fun script => Uint160.ofBytes (Crypto.ripemd160 (Crypto.sha512 script))

variable (desc : Descriptor) (pos : Int)

/-- `Expand`: the scripts, the public material, and the derived keys for the cache. -/
def expand (provider : SeedSource) : Option (Expanded (List Bytes)) :=
  desc.expandHelper pos provider none .empty ∅

def expandFromCache (readCache : DescriptorCache) : Option (List Bytes × FlatSigningProvider) :=
  (desc.expandHelper pos (fun _ => none) (some readCache) .empty ∅).map fun expanded =>
    (expanded.result, expanded.out)

end Descriptor

/-- `IsSchemeAllowedAtHeight`: before merge mining only the first scheme is. -/
def isSchemeAllowedAtHeight (id : SchemeId) (auxpowStartHeight height : Int) : Bool :=
  if height < auxpowStartHeight then id = .falcon512 else true

end Tidecoin
