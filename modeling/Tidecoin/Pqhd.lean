import Tidecoin.Script.Descriptor

/-!
The derivation of keys from a seed, `pq/pqhd_kdf.cpp` and `KeyGenFromSeed` of `pq/pqhd_keygen.cpp`,
without the failures that tests inject.
-/

namespace Tidecoin.Pqhd

open Lib List Option

/-- HMAC-SHA512, and the generation of a raw public and secret key from a seed, which can fail. -/
class Primitives where
  hmacSha512 : (key msg : Bytes) → Bytes
  hmacSha512Length : ∀ key msg, (hmacSha512 key msg).length = 64
  keypair : SchemeId → (seed : Bytes) → Option (Bytes × Bytes)

open Primitives

structure Node where
  nodeSecret : Bytes
  chainCode : Bytes
deriving DecidableEq, Repr

def label (text : String) : Bytes := text.toList.map fun letter => UInt8.ofNat letter.toNat

def ser32BE (v : UInt32) : Bytes := (natToLE 4 v.toNat).reverse

structure LeafMaterialV1 where
  schemeId : SchemeId
  streamKey : Bytes
deriving DecidableEq, Repr

/-- The bytes of a stream block that are the seed of the scheme's generator. -/
def seedLen : SchemeId → Nat
  | .falcon512 | .falcon1024 => 48
  | .mldsa44 | .mldsa65 | .mldsa87 => 32

/-- The message the stream key of a leaf is computed from. -/
def streamInfo (schemeId : SchemeId) (path : List UInt32) : Bytes :=
  label "Tidecoin PQHD stream key v1" ++ ser32BE schemeId.prefixByte.toUInt32 ++
    path.flatMap ser32BE ++ [0x01]

def hkdfSalt : Bytes := label "Tidecoin PQHD hkdf v1"

def rngMessage (ctr : UInt32) : Bytes := label "Tidecoin PQHD rng v1" ++ ser32BE ctr

variable [Primitives]

def Node.ofBytes (I : Bytes) : Node := ⟨I.take 32, I.drop 32⟩

def makeMasterNode (masterSeed : Bytes) : Node :=
  .ofBytes (hmacSha512 (label "Tidecoin PQHD seed") masterSeed)

def deriveChild (parent : Node) (indexHardened : UInt32) : Option Node :=
  if indexHardened &&& hardened = 0 then none
  else some (.ofBytes (hmacSha512 parent.chainCode (0x00 :: parent.nodeSecret ++
    ser32BE indexHardened)))

def derivePath (master : Node) (pathHardened : List UInt32) : Option Node :=
  pathHardened.foldlM deriveChild master

def deriveLeafMaterialV1 (nodeSecretLeaf : Bytes) (pathHardened : List UInt32) :
    Option LeafMaterialV1 := do
  guard (validateV1LeafPath pathHardened)
  let schemeId ← pathHardened[2]?.bind fun elem => schemeFromPrefix (masked elem).toUInt8
  return ⟨schemeId, hmacSha512 (hmacSha512 hkdfSalt nodeSecretLeaf)
    (streamInfo schemeId pathHardened)⟩

def deriveKeygenStreamBlock (streamKey : Bytes) (ctr : UInt32) : Bytes :=
  hmacSha512 streamKey (rngMessage ctr)

/-- What `KeyGenFromSeed` hands to the generator in one attempt. -/
def keyGenSeed (schemeId : SchemeId) (keyMaterial : Bytes) (ctr : UInt32) : Bytes :=
  (deriveKeygenStreamBlock keyMaterial ctr).take (seedLen schemeId)

def keyGenFromSeed (pqhdVersion : Nat) (schemeId : SchemeId) (keyMaterial : Bytes) :
    Option (Bytes × Bytes) :=
  if pqhdVersion ≠ 1 then none
  else (List.range 1024).findSome? fun ctr =>
    keypair schemeId (keyGenSeed schemeId keyMaterial (UInt32.ofNat ctr))

/-- The derivation the descriptors use. -/
@[reducible] def keys (seedID : Bytes → Uint256) : PqhdKeys where
  leaf masterSeed leafPath := do
    let leafNode ← derivePath (makeMasterNode masterSeed) leafPath
    let leafMaterial ← deriveLeafMaterialV1 leafNode.nodeSecret leafPath
    keyGenFromSeed 1 leafMaterial.schemeId leafMaterial.streamKey
  seedID := seedID

/-- The calls of HMAC-SHA512, each a key and a message, differ in the first bytes of their results.
-/
def CollisionFree (size : Nat) (calls : List (Bytes × Bytes)) : Prop :=
  ∀ call ∈ calls, ∀ other ∈ calls,
    (hmacSha512 call.1 call.2).take size = (hmacSha512 other.1 other.2).take size → call = other

/-- The calls that derive the stream key of a leaf. -/
def leafCalls (nodeSecretLeaf : Bytes) (schemeId : SchemeId) (path : List UInt32) :
    List (Bytes × Bytes) :=
  [(hkdfSalt, nodeSecretLeaf), (hmacSha512 hkdfSalt nodeSecretLeaf, streamInfo schemeId path)]

omit [Primitives] in
lemma ser32BE_injective : Function.Injective ser32BE := by
  intro v other heq
  have hread : ∀ v : UInt32, leToNat (ser32BE v).reverse = v.toNat := by
    intro v
    rw [ser32BE, reverse_reverse, leToNat_natToLE]
    exact Nat.mod_eq_of_lt v.toNat_lt
  apply UInt32.toNat_inj.1
  rw [← hread, heq, hread]

omit [Primitives] in
lemma flatMap_ser32BE_injective {path other : List UInt32}
    (heq : path.flatMap ser32BE = other.flatMap ser32BE) : path = other := by
  induction path generalizing other with
  | nil => cases other <;> simp [ser32BE, natToLE] at heq ⊢
  | cons elem path ih =>
    cases other with
    | nil => simp [ser32BE, natToLE] at heq
    | cons elem' other =>
      rw [flatMap_cons, flatMap_cons] at heq
      obtain ⟨helem, hpath⟩ := append_inj heq (by simp [ser32BE])
      rw [ser32BE_injective helem, ih hpath]

omit [Primitives] in
lemma path_of_streamInfo {schemeId otherId : SchemeId} {path other : List UInt32}
    (heq : streamInfo schemeId path = streamInfo otherId other) : path = other := by
  simp only [streamInfo, append_assoc] at heq
  have hrest := (append_inj (append_cancel_left heq) (by simp [ser32BE])).2
  exact flatMap_ser32BE_injective (append_cancel_right hrest)

lemma derivePath_isSome (master : Node) (path : List UInt32) :
    (derivePath master path).isSome ↔ ∀ index ∈ path, index &&& hardened ≠ 0 := by
  induction path generalizing master with
  | nil => simp [derivePath]
  | cons index path ih =>
    rw [derivePath, foldlM_cons, forall_mem_cons]
    by_cases hindex : index &&& hardened = 0
    · simp [deriveChild, hindex]
    · simp only [deriveChild, hindex, ne_eq, not_false_eq_true, true_and]
      exact ih _

section

variable {secret : Bytes} {path : List UInt32} {material : LeafMaterialV1}

/-- A valid path encodes a scheme, and its leaf is one of that scheme. -/
theorem deriveLeafMaterialV1_of_valid (hvalid : validateV1LeafPath path) :
    ∃ schemeId : SchemeId, path[2]?.map masked = some schemeId.prefixByte.toUInt32 ∧
      ∀ secret, deriveLeafMaterialV1 secret path =
        some ⟨schemeId, hmacSha512 (hmacSha512 hkdfSalt secret) (streamInfo schemeId path)⟩ := by
  have hthird := hvalid
  simp only [validateV1LeafPath, Bool.and_eq_true] at hthird
  obtain ⟨elem, helem, hknown⟩ := (any_eq_true _ _).1 hthird.1.2
  simp only [Bool.and_eq_true, decide_eq_true_eq] at hknown
  obtain ⟨schemeId, hscheme⟩ := isSome_iff_exists.1 hknown.2
  refine ⟨schemeId, ?_, fun secret => ?_⟩
  · rw [helem, map_some, ← schemeFromPrefix_eq_some.1 hscheme]
    have hle := UInt32.le_iff_toNat_le.1 hknown.1
    rw [some_inj, ← UInt32.toNat_inj]
    simp only [UInt8.toNat_toUInt32, UInt32.toNat_toUInt8]
    change _ ≤ 255 at hle
    omega
  · simp [deriveLeafMaterialV1, hvalid, helem, hscheme]

lemma deriveLeafMaterialV1_eq (hleaf : deriveLeafMaterialV1 secret path = some material) :
    path[2]?.map masked = some material.schemeId.prefixByte.toUInt32 ∧
      material.streamKey = hmacSha512 (hmacSha512 hkdfSalt secret) (streamInfo material.schemeId
        path) := by
  have hvalid : validateV1LeafPath path := by
    by_contra hvalid
    simp [deriveLeafMaterialV1, hvalid] at hleaf
  obtain ⟨schemeId, hscheme, hderive⟩ := deriveLeafMaterialV1_of_valid hvalid
  obtain rfl := some_inj.1 ((hderive secret).symm.trans hleaf)
  exact ⟨hscheme, rfl⟩

end

lemma ctr_of_streamBlock {size : Nat} {key key' : Bytes} {ctr ctr' : UInt32}
    (hfree : CollisionFree size [(key, rngMessage ctr), (key', rngMessage ctr')])
    (heq : (deriveKeygenStreamBlock key ctr).take size =
      (deriveKeygenStreamBlock key' ctr').take size) :
    key = key' ∧ ctr = ctr' := by
  obtain ⟨hkey, hmsg⟩ :=
    Prod.mk.inj (hfree (key, rngMessage ctr) (by simp) (key', rngMessage ctr') (by simp) heq)
  exact ⟨hkey, ser32BE_injective (append_cancel_left hmsg)⟩

/-- Paths compose, only hardened ones derive, and a leaf is that of the scheme in its path. Without
collisions of HMAC-SHA512 different leaves have different stream keys and the blocks of different
keys or counters differ; without collisions of its cut outputs so do the seeds of the generator. -/
theorem derivation_laws : (∀ master p q,
      ((derivePath master (p ++ q)).isSome = true ↔ ∀ index ∈ p ++ q, index &&& hardened ≠ 0) ∧
      derivePath master (p ++ q) = (derivePath master p).bind fun node => derivePath node q) ∧
    (∀ secret path, (deriveLeafMaterialV1 secret path).isSome = validateV1LeafPath path) ∧
    (∀ secret path material, deriveLeafMaterialV1 secret path = some material →
      path[2]?.map masked = some material.schemeId.prefixByte.toUInt32) ∧
    (∀ secret secret' path path' material material',
      deriveLeafMaterialV1 secret path = some material →
      deriveLeafMaterialV1 secret' path' = some material' →
      CollisionFree 64 (leafCalls secret material.schemeId path ++
        leafCalls secret' material'.schemeId path') →
      material.streamKey = material'.streamKey → secret = secret' ∧ path = path') ∧
    ∀ key key' ctr ctr', (CollisionFree 64 [(key, rngMessage ctr), (key', rngMessage ctr')] →
        deriveKeygenStreamBlock key ctr = deriveKeygenStreamBlock key' ctr' → key = key' ∧
          ctr = ctr') ∧
      ∀ schemeId, CollisionFree (seedLen schemeId) [(key, rngMessage ctr),
        (key', rngMessage ctr')] →
        keyGenSeed schemeId key ctr = keyGenSeed schemeId key' ctr' → key = key' ∧ ctr = ctr' := by
  refine ⟨fun master p q => ⟨derivePath_isSome master _, foldlM_append⟩, fun secret path => ?_,
    fun _ _ _ hleaf => (deriveLeafMaterialV1_eq hleaf).1,
    fun secret secret' path path' material material' hleaf hleaf' hfree heq =>
      ?_, fun key key' ctr ctr' =>
    ⟨fun hfree heq => ctr_of_streamBlock hfree (congrArg _ heq), fun _ => ctr_of_streamBlock⟩⟩
  · cases hvalid : validateV1LeafPath path with
    | true =>
      obtain ⟨schemeId, -, hderive⟩ := deriveLeafMaterialV1_of_valid hvalid
      rw [hderive, isSome_some]
    | false => simp [deriveLeafMaterialV1, hvalid]
  · rw [(deriveLeafMaterialV1_eq hleaf).2, (deriveLeafMaterialV1_eq hleaf').2] at heq
    obtain ⟨hprk, hinfo⟩ :=
      Prod.mk.inj (hfree (_, streamInfo material.schemeId path) (by simp [leafCalls])
      (_, streamInfo material'.schemeId path') (by simp [leafCalls]) (congrArg _ heq))
    have hsecret :=
      hfree (hkdfSalt, secret) (by simp [leafCalls]) (hkdfSalt, secret') (by simp [leafCalls])
      (congrArg _ hprk)
    exact ⟨(Prod.mk.inj hsecret).2, path_of_streamInfo hinfo⟩

/-- The key of a leaf comes from the first seed that the generator accepts. Without collisions it
had not tried that seed before. -/
theorem keys_leaf_eq_some {seedID : Bytes → Uint256} {masterSeed : Bytes} {path : List UInt32}
    {keypair : Bytes × Bytes} (hleaf : (keys seedID).leaf masterSeed path = some keypair) :
    ∃ node material, derivePath (makeMasterNode masterSeed) path = some node ∧
      deriveLeafMaterialV1 node.nodeSecret path = some material ∧
      ∃ ctr < 1024, Primitives.keypair material.schemeId
          (keyGenSeed material.schemeId material.streamKey (UInt32.ofNat ctr)) = some keypair ∧
        ∀ earlier < ctr,
          CollisionFree (seedLen material.schemeId)
            [(material.streamKey, rngMessage (UInt32.ofNat earlier)),
              (material.streamKey, rngMessage (UInt32.ofNat ctr))] →
          keyGenSeed material.schemeId material.streamKey (UInt32.ofNat earlier) ≠
            keyGenSeed material.schemeId material.streamKey (UInt32.ofNat ctr) := by
  obtain ⟨node, hnode, hleaf⟩ := bind_eq_some_iff.1 hleaf
  obtain ⟨material, hmaterial, hkey⟩ := bind_eq_some_iff.1 hleaf
  rw [keyGenFromSeed, if_neg (by decide)] at hkey
  obtain ⟨ctr, hmem, hctr⟩ := exists_of_findSome?_eq_some hkey
  have hlt := mem_range.1 hmem
  refine ⟨node, material, hnode, hmaterial, ctr, hlt, hctr, fun earlier hearlier hfree heq => ?_⟩
  have hsame := congrArg UInt32.toNat (ctr_of_streamBlock hfree heq).2
  rw [UInt32.toNat_ofNat_of_lt' (by simp only [UInt32.size]; omega),
    UInt32.toNat_ofNat_of_lt' (by simp only [UInt32.size]; omega)] at hsame
  omega

omit [Primitives] in
/-- An HMAC that keeps the end of the message. -/
@[reducible] def endHmac : Primitives :=
  ⟨fun _ msg => (msg.reverse ++ replicate 64 0).take 64, by simp, fun _ _ => none⟩

omit [Primitives] in
/-- Two leaves of one secret. -/
theorem derivation_laws_two_leaves : let _ := endHmac
    let path := fun index => [10007, 6868, 7, 0, 0, index].map (hardened ||| ·)
    ∃ material material', deriveLeafMaterialV1 [] (path 0) = some material ∧
      deriveLeafMaterialV1 [] (path 1) = some material' ∧
      CollisionFree 64 (leafCalls [] material.schemeId (path 0) ++
        leafCalls [] material'.schemeId (path 1)) ∧
      material.streamKey ≠ material'.streamKey := by
  intro _ path
  have hcalls : CollisionFree 64 (leafCalls [] .falcon512 (path 0) ++
      leafCalls [] .falcon512 (path 1)) := by
    unfold CollisionFree
    decide +kernel
  have hscheme : (deriveLeafMaterialV1 [] (path 0)).map LeafMaterialV1.schemeId =
      some .falcon512 := by
    decide +kernel
  have hscheme' : (deriveLeafMaterialV1 [] (path 1)).map LeafMaterialV1.schemeId =
      some .falcon512 := by
    decide +kernel
  obtain ⟨⟨_, key⟩, hfirst, rfl⟩ := map_eq_some_iff.1 hscheme
  obtain ⟨⟨_, key'⟩, hsecond, hsame⟩ := map_eq_some_iff.1 hscheme'
  cases hsame
  refine ⟨_, _, hfirst, hsecond, hcalls, fun heq => ?_⟩
  have hpath := (derivation_laws.2.2.2.1 _ _ _ _ _ _ hfirst hsecond hcalls heq).2
  exact absurd hpath (by decide)

omit [Primitives] in
/-- Blocks that differ in their last byte only give the generator the same seed. -/
theorem keyGenSeed_collision : ∃ primitives : Primitives, ∃ key : Bytes, key.length = 64 ∧
    @CollisionFree primitives 64 [(key, rngMessage 0), (key, rngMessage 1)] ∧
    @deriveKeygenStreamBlock primitives key 0 ≠ @deriveKeygenStreamBlock primitives key 1 ∧
    @keyGenSeed primitives .falcon512 key 0 = @keyGenSeed primitives .falcon512 key 1 := by
  refine ⟨⟨fun _ msg => replicate 63 0 ++ [msg.getLast?.getD 0], by simp, fun _ _ => none⟩,
    replicate 64 0, by simp, ?_, by decide, by decide⟩
  intro call hcall other hother heq
  simp only [mem_cons, not_mem_nil, or_false] at hcall hother
  rcases hcall with rfl | rfl <;> rcases hother with rfl | rfl
  · rfl
  · exact absurd heq (by decide)
  · exact absurd heq (by decide)
  · rfl

end Tidecoin.Pqhd
