import AccessLayer.Library.PromotionTree

/-
  Hashing and reference trees of the Merkle-proof event
  integrity system (`src/utils/merkle.ts`).

  SHA-256 is a parameter.  Hashes travel as hexadecimal text,
  decoded before they are combined.

  Main declaration: `buildFullReferenceMerkleTree_root`
-/

-- Hexadecimal Text
----

namespace AccessLayer

namespace Merkle

section

abbrev Bytes := List UInt8

/- The lowercase digit of a half byte. -/
def hexDigit (n : Nat) : Char :=
  if n < 10 then Char.ofNat (48 + n)
  else Char.ofNat (87 + n)

/- The `digest('hex')` text of a byte string. -/
def hexEncode (bytes : Bytes) : String :=
  String.ofList (bytes.flatMap fun b => [hexDigit (b.toNat / 16), hexDigit (b.toNat % 16)])

/- The value of a hexadecimal digit of either case. -/
def hexValue? (c : Char) : Option Nat :=
  if '0' ≤ c ∧ c ≤ '9' then some (c.toNat - 48)
  else if 'a' ≤ c ∧ c ≤ 'f' then some (c.toNat - 87)
  else if 'A' ≤ c ∧ c ≤ 'F' then some (c.toNat - 55)
  else none

/-
  `Buffer.from(text, 'hex')`: decoding stops at the first pair
  of characters that is not hexadecimal.
-/
def hexDecode : List Char → Bytes
  | c :: d :: rest =>
    match hexValue? c, hexValue? d with
    | some high, some low => UInt8.ofNat (16 * high + low) :: hexDecode rest
    | _, _ => []
  | _ => []

/- `toLowerCase` on the ASCII text of hashes. -/
def toLowerCase (text : String) : String := String.ofList (text.toList.map Char.toLower)

/- The values that a hash function's hex digest can take. -/
def IsDigest (text : String) : Prop := ∃ bytes, text = hexEncode bytes

theorem hexDigit_toLower {n : Nat} (hn : n < 16) : (hexDigit n).toLower = hexDigit n := by
  revert n
  decide

theorem toLowerCase_of_isDigest {text : String} (h : IsDigest text) : toLowerCase text = text := by
  rcases h with ⟨bytes, rfl⟩
  simp only [toLowerCase, hexEncode, String.toList_ofList, List.map_flatMap]
  congr 1
  congr 1
  funext b
  have hHigh : b.toNat / 16 < 16 := by
    have := b.toNat_lt
    omega
  have hLow : b.toNat % 16 < 16 := Nat.mod_lt _ (by omega)
  simp only [List.map_cons, List.map_nil, hexDigit_toLower hHigh, hexDigit_toLower hLow]

-- Leaf and Node Hashes
----

/- The fields of an event that its leaf hash covers. -/
structure EventLeafInput where
  ledger : Nat
  txHash : String
  eventIndex : Nat
  topic : String
  dataJson : String

/- `encodeLengthPrefixed`: the length as four big-endian bytes, then the UTF-8 bytes of the text. -/
def encodeLengthPrefixed (value : String) : Bytes :=
  let payload := value.toUTF8.toList
  [UInt8.ofNat (payload.length / 256 ^ 3), UInt8.ofNat (payload.length / 256 ^ 2),
    UInt8.ofNat (payload.length / 256), UInt8.ofNat payload.length] ++ payload

variable (sha256 : Bytes → Bytes)

/-
  The leaf hash of an event.  `canonicalData` is the canonical
  text of the payload: `canonicalizeJson` of the parsed JSON, or
  the text itself when it does not parse.
-/
def computeEventLeafHash (canonicalData : String → String) (event : EventLeafInput) : String :=
  hexEncode (sha256 (encodeLengthPrefixed (toString event.ledger) ++
    encodeLengthPrefixed event.txHash ++ encodeLengthPrefixed (toString event.eventIndex) ++
    encodeLengthPrefixed event.topic ++ encodeLengthPrefixed (canonicalData event.dataJson)))

/- The parent hash of two nodes. -/
def hashPair (leftChildHex rightChildHex : String) : String :=
  hexEncode (sha256 (hexDecode leftChildHex.toList ++ hexDecode rightChildHex.toList))

theorem isDigest_computeEventLeafHash (canonicalData : String → String) (event : EventLeafInput) :
    IsDigest (computeEventLeafHash sha256 canonicalData event) := ⟨_, rfl⟩

theorem isDigest_hashPair (l r : String) : IsDigest (hashPair sha256 l r) := ⟨_, rfl⟩

end

-- Reference Trees
----

section

open PromotionTree

/- What `buildFullReferenceMerkleTree` returns. -/
structure ReferenceTree where
  root : String
  levels : List (List String)

variable (sha256 : Bytes → Bytes)

/- One pass of the loop that builds `nextLevel`. -/
def nextLevel (currentLevel : List String) : List String := pairUp (hashPair sha256) currentLevel

/- The loop over levels, with the levels built so far. -/
def buildLevels
    (levels : List (List String)) (currentLevel : List String) : ReferenceTree :=
  if 1 < currentLevel.length then
    buildLevels (levels ++ [nextLevel sha256 currentLevel])
      (nextLevel sha256 currentLevel)
  else
    { root := currentLevel[0]?.getD "", levels }
termination_by currentLevel.length
decreasing_by
  rw [nextLevel, length_pairUp]
  omega

def buildFullReferenceMerkleTree (leafHashes : List String) : ReferenceTree :=
  if leafHashes.length = 0 then
    { root := "", levels := [[]] }
  else buildLevels sha256 [leafHashes] leafHashes

/- The root that the specification assigns to some leaves. -/
def referenceRoot (leafHashes : List String) : String :=
  (buildFullReferenceMerkleTree sha256 leafHashes).root

theorem buildLevels_root (levels : List (List String)) (currentLevel : List String) :
    (buildLevels sha256 levels currentLevel).root =
      (root (hashPair sha256) currentLevel).getD "" := by
  induction levels, currentLevel using buildLevels.induct sha256 with
  | case1 levels currentLevel hLong ih =>
    rw [buildLevels, if_pos hLong, ih, ← collapse_eq_root, ← collapse_eq_root, nextLevel]
    conv_rhs => rw [collapse, if_pos hLong]
  | case2 levels currentLevel hShort =>
    rw [buildLevels, if_neg hShort, ← collapse_eq_root, collapse, if_neg hShort]

theorem buildFullReferenceMerkleTree_root (leafHashes : List String) :
    referenceRoot sha256 leafHashes = (root (hashPair sha256) leafHashes).getD "" := by
  rw [referenceRoot, buildFullReferenceMerkleTree]
  split
  · rename_i hEmpty
    rw [List.length_eq_zero_iff.mp hEmpty]
    simp [root]
  · exact buildLevels_root sha256 _ _

theorem buildLevels_levels (levels : List (List String)) (currentLevel : List String) :
    (buildLevels sha256 levels currentLevel).levels = levels ++
      (List.range (Nat.clog 2 currentLevel.length)).map (fun k => level (hashPair sha256) (k + 1)
        currentLevel) := by
  induction levels, currentLevel using buildLevels.induct sha256 with
  | case1 levels currentLevel hLong ih =>
    have hClog : Nat.clog 2 currentLevel.length =
        Nat.clog 2 (nextLevel sha256 currentLevel).length + 1 := by
      rw [Nat.clog_of_one_lt (by omega) hLong, nextLevel, length_pairUp]
      rfl
    rw [buildLevels, if_pos hLong, ih, hClog, List.range_succ_eq_map, List.map_cons, List.map_map,
      List.append_assoc, List.singleton_append]
    rfl
  | case2 levels currentLevel hShort =>
    rw [buildLevels, if_neg hShort, Nat.clog_of_right_le_one (by omega)]
    simp

variable {leafHashes : List String}

theorem buildFullReferenceMerkleTree_levels (hNonempty : 0 < leafHashes.length) (k : Nat) :
    (buildFullReferenceMerkleTree sha256 leafHashes).levels[k]? =
      if k ≤ Nat.clog 2 leafHashes.length then
        some (level (hashPair sha256) k leafHashes)
      else none := by
  rw [buildFullReferenceMerkleTree, if_neg (by omega), buildLevels_levels]
  cases k with
  | zero => simp [level]
  | succ k =>
    rw [List.singleton_append, List.getElem?_cons_succ, List.getElem?_map]
    by_cases hk : k < Nat.clog 2 leafHashes.length
    · rw [List.getElem?_range hk, if_pos (by omega)]
      rfl
    · rw [List.getElem?_eq_none (by simpa using hk), if_neg (by omega)]
      rfl

theorem isDigest_of_mem_level (hLeaves : ∀ h ∈ leafHashes, IsDigest h) (k : Nat) :
    ∀ h ∈ level (hashPair sha256) k leafHashes, IsDigest h := by
  induction k with
  | zero => exact hLeaves
  | succ k ih =>
    intro h hMem
    rw [level_succ] at hMem
    rcases List.mem_iff_getElem?.mp hMem with ⟨p, hp⟩
    rw [getElem?_pairUp] at hp
    split at hp
    · cases hp
      exact isDigest_hashPair sha256 _ _
    · rename_i hLeft hRight
      cases hp
      exact ih _ (List.mem_of_getElem? hLeft)
    · cases hp

end

-- Proof Verification
----

open PromotionTree

structure MerkleProofSibling where
  hash : String
  side : Side

/- The part of an inclusion proof that is verified. -/
structure MerkleInclusionProof where
  leafHash : String
  siblings : List MerkleProofSibling

variable (sha256 : Bytes → Bytes)

/- Recompute the root and compare it with the expected one. -/
def verifyInclusionProof (proof : MerkleInclusionProof) (expectedRoot : String) : Bool :=
  let current :=
    proof.siblings.foldl (fun current sibling =>
      let siblingHash := toLowerCase sibling.hash
      match sibling.side with
      | .left => hashPair sha256 siblingHash current
      | .right => hashPair sha256 current siblingHash)
      (toLowerCase proof.leafHash)
  toLowerCase current = toLowerCase expectedRoot

/- A path of digests that climbs from a digest to the root is accepted. -/
theorem verifyInclusionProof_of_climb {proof : MerkleInclusionProof} {expectedRoot : String}
    (hLeaf : IsDigest proof.leafHash) (hSiblings : ∀ s ∈ proof.siblings, IsDigest s.hash)
    (hClimb : (proof.siblings.map (fun s => (s.side, s.hash))).foldl
      (combine (hashPair sha256)) proof.leafHash = expectedRoot) :
    verifyInclusionProof sha256 proof expectedRoot = true := by
  have hFold :
      ∀ (siblings : List MerkleProofSibling) (node : String), (∀ s ∈ siblings, IsDigest s.hash) →
        siblings.foldl (fun current sibling =>
          match sibling.side with
          | .left => hashPair sha256 (toLowerCase sibling.hash) current
          | .right => hashPair sha256 current (toLowerCase sibling.hash))
          node =
        (siblings.map (fun s => (s.side, s.hash))).foldl
          (combine (hashPair sha256)) node := by
    intro siblings
    induction siblings with
    | nil => intro node _; rfl
    | cons s rest ih =>
      intro node hAll
      have hLower := toLowerCase_of_isDigest (hAll s (by simp))
      have hRest := ih (combine (hashPair sha256) node (s.side, s.hash))
        (fun s' hs' => hAll s' (by simp [hs']))
      simp only [List.foldl_cons, List.map_cons, hLower]
      cases hSide : s.side with
      | left => simpa [hSide, combine] using hRest
      | right => simpa [hSide, combine] using hRest
  simp only [verifyInclusionProof, decide_eq_true_eq]
  rw [toLowerCase_of_isDigest hLeaf, hFold proof.siblings proof.leafHash hSiblings, hClimb]

-- Soundness
----

theorem hexDecode_hexEncode (bytes : Bytes) : hexDecode (hexEncode bytes).toList = bytes := by
  have hDigit : ∀ n < 16, hexValue? (hexDigit n) = some n := by decide
  rw [hexEncode, String.toList_ofList]
  induction bytes with
  | nil => rfl
  | cons b rest ih =>
    have hb := b.toNat_lt
    rw [List.flatMap_cons, List.cons_append, List.cons_append, List.nil_append, hexDecode,
      hDigit _ (by omega), hDigit _ (by omega)]
    simp only [ih, Nat.div_add_mod, UInt8.ofNat_toNat]

/- A text of 32 bytes, in either case. -/
def IsHash (text : String) : Prop :=
  ∃ bytes : Bytes, bytes.length = 32 ∧ toLowerCase text = hexEncode bytes

def Collision : Prop := ∃ bytes bytes', bytes ≠ bytes' ∧ sha256 bytes = sha256 bytes'

variable {sha256}

theorem eq_or_collision {x y : Bytes} (h : hexEncode (sha256 x) = hexEncode (sha256 y)) :
    x = y ∨ Collision sha256 := by
  have hHash := congrArg (fun text => hexDecode text.toList) h
  simp only [hexDecode_hexEncode] at hHash
  exact or_iff_not_imp_left.mpr fun hNe => ⟨x, y, hNe, hHash⟩

/-
  No second leaf is proved at the place of the first, short of
  two texts with one SHA-256 hash.
-/
theorem verifyInclusionProof_binding {leaf leaf' expectedRoot : String}
    (siblings siblings' : List MerkleProofSibling) (hLength : ∀ bytes, (sha256 bytes).length = 32)
    (hLeaf : IsHash leaf) (hLeaf' : IsHash leaf')
    (hSiblings : ∀ s ∈ siblings ++ siblings', IsHash s.hash)
    (hSides : siblings.map (·.side) = siblings'.map (·.side))
    (hProof : verifyInclusionProof sha256 ⟨leaf, siblings⟩ expectedRoot = true)
    (hProof' : verifyInclusionProof sha256 ⟨leaf', siblings'⟩ expectedRoot = true) :
    toLowerCase leaf = toLowerCase leaf' ∨ Collision sha256 := by
  rcases hLeaf with ⟨a, ha, hLeaf⟩
  rcases hLeaf' with ⟨a', ha', hLeaf'⟩
  simp only [verifyInclusionProof, decide_eq_true_eq, hLeaf, hLeaf'] at hProof hProof' ⊢
  replace hProof := hProof.trans hProof'.symm
  clear hLeaf hLeaf' hProof'
  induction siblings generalizing a a' siblings' with
  | nil =>
    cases List.map_eq_nil_iff.mp hSides.symm
    simp only [List.foldl_nil, toLowerCase_of_isDigest ⟨_, rfl⟩] at hProof
    exact .inl hProof
  | cons s rest ih =>
    rcases List.map_eq_cons_iff.mp hSides.symm with ⟨s', rest', rfl, hSide, hRest⟩
    rcases hSiblings s (by simp) with ⟨b, hb, hHash⟩
    rcases hSiblings s' (by simp) with ⟨b', hb', hHash'⟩
    simp only [List.foldl_cons, hHash, hHash', hashPair, hexDecode_hexEncode, hSide] at hProof
    cases hS : s.side with
    | left =>
      simp only [hS] at hProof
      refine (ih rest' (by grind) hRest.symm _ (hLength _) _ (hLength _) hProof).elim ?_ .inr
      exact fun h => (eq_or_collision h).imp_left fun h =>
        congrArg hexEncode (List.append_inj_right' h (ha.trans ha'.symm))
    | right =>
      simp only [hS] at hProof
      refine (ih rest' (by grind) hRest.symm _ (hLength _) _ (hLength _) hProof).elim ?_ .inr
      exact fun h => (eq_or_collision h).imp_left fun h =>
        congrArg hexEncode (List.append_inj_left h (ha.trans ha'.symm))

/- The hash of 64 zero bytes. -/
theorem verifyInclusionProof_binding_zeros :
    let root := "f5a5fd42d16a20302798ef6ed309979b43003d2320d9f0e8ea9831a92759fb4b"
    let zeros := hexEncode (List.replicate 32 0)
    verifyInclusionProof (fun _ => hexDecode root.toList) ⟨zeros, [⟨zeros, .left⟩]⟩ root = true ∧
      (toLowerCase zeros = toLowerCase zeros ∨ Collision fun _ => hexDecode root.toList) := by
  intro root zeros
  have hZeros : IsHash zeros := ⟨_, List.length_replicate, toLowerCase_of_isDigest ⟨_, rfl⟩⟩
  have hProof : verifyInclusionProof (fun _ => hexDecode root.toList) ⟨zeros, [⟨zeros, .left⟩]⟩
      root = true := by decide +kernel
  exact ⟨hProof, verifyInclusionProof_binding _ _ (fun _ => by decide +kernel) hZeros hZeros
    (by simpa using hZeros) rfl hProof hProof⟩

end Merkle

end AccessLayer
