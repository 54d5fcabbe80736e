import InfinityOS.Security.SupplyChain

/-!
# Signed artifacts

A payload is signed through its canonical form, in which the members of every object are
sorted by key. The form is the same for payloads that differ in the order of their members
only, so that these have the same signature; and the verifier computes what the signer has
computed.

An object is the list of its members in the order in which the map is iterated. How a value is
written as bytes is a parameter.
-/

namespace InfinityOS

namespace Security

mutual

def DistinctKeys : Json → Prop
  | .null | .bool _ | .number _ | .string _ => True
  | .array items => DistinctItems items
  | .object members => (members.map Prod.fst).Nodup ∧ DistinctMembers members

def DistinctItems : List Json → Prop
  | [] => True
  | v :: items => DistinctKeys v ∧ DistinctItems items

def DistinctMembers : List (String × Json) → Prop
  | [] => True
  | (_, v) :: members => DistinctKeys v ∧ DistinctMembers members

end

/-- A `serde_json::Value`, whose objects are maps. -/
structure Payload where
  value : Json
  distinct : DistinctKeys value

mutual

/-- The values are equal up to the order of members, at every depth. -/
def SameJson : Json → Json → Prop
  | .null, w => w = .null
  | .bool b, w => w = .bool b
  | .number n, w => w = .number n
  | .string s, w => w = .string s
  | .array items, w => ∃ items', w = .array items' ∧ SameItems items items'
  | .object members, w => ∃ members', w = .object members' ∧ SameMembers members members'

def SameItems : List Json → List Json → Prop
  | [], items' => items' = []
  | v :: items, items' => ∃ w rest, items' = w :: rest ∧ SameJson v w ∧ SameItems items rest

def SameMembers : List (String × Json) → List (String × Json) → Prop
  | [], members' => members' = []
  | (k, v) :: members, members' =>
      ∃ before w after, members' = before ++ (k, w) :: after ∧ SameJson v w ∧
        SameMembers members (before ++ after)

end

/-- The order of `sort_by_key`. -/
def byKey (p q : String × Json) : Prop :=
  p.1 ≤ q.1

instance : DecidableRel byKey :=
  fun p q => inferInstanceAs (Decidable (p.1 ≤ q.1))

mutual

/-- `canonical_json_value`. The values of an object are made canonical before its members
are sorted, which compares the keys only. -/
def canonicalJson : Json → Json
  | .null => .null
  | .bool b => .bool b
  | .number n => .number n
  | .string s => .string s
  | .array items => .array (canonicalItems items)
  | .object members => .object ((canonicalMembers members).insertionSort byKey)

def canonicalItems : List Json → List Json
  | [] => []
  | v :: items => canonicalJson v :: canonicalItems items

def canonicalMembers : List (String × Json) → List (String × Json)
  | [] => []
  | (k, v) :: members => (k, canonicalJson v) :: canonicalMembers members

end

/-! ## The canonical form -/

theorem canonicalMembers_eq_map (members : List (String × Json)) :
    canonicalMembers members = members.map fun p => (p.1, canonicalJson p.2) := by
  induction members with
  | nil => rfl
  | cons p members ih =>
      obtain ⟨k, v⟩ := p
      rw [canonicalMembers, List.map_cons, ih]

theorem map_fst_canonicalMembers (members : List (String × Json)) :
    (canonicalMembers members).map Prod.fst = members.map Prod.fst := by
  rw [canonicalMembers_eq_map, List.map_map]
  rfl

instance : Std.Total byKey :=
  ⟨fun p q => le_total p.1 q.1⟩

instance : IsTrans (String × Json) byKey :=
  ⟨fun _ _ _ hpq hqr => le_trans hpq hqr⟩

theorem insertionSort_eq_of_perm {members members' : List (String × Json)}
    (hperm : members.Perm members') (hdistinct : (members.map Prod.fst).Nodup) :
    members.insertionSort byKey = members'.insertionSort byKey := by
  have hsorted := List.perm_insertionSort byKey members
  have hsorted' := List.perm_insertionSort byKey members'
  apply List.Perm.eq_of_pairwise _ (List.pairwise_insertionSort byKey members)
    (List.pairwise_insertionSort byKey members')
  · exact hsorted.trans (hperm.trans hsorted'.symm)
  · intro p q hp hq hpq hqp
    have hkey : p.1 = q.1 := le_antisymm hpq hqp
    have hp' := hsorted.mem_iff.mp hp
    have hq' := hperm.mem_iff.mpr (hsorted'.mem_iff.mp hq)
    exact List.inj_on_of_nodup_map hdistinct hp' hq' hkey

mutual

theorem canonicalJson_eq_of_same : ∀ (v w : Json), DistinctKeys v → SameJson v w →
    canonicalJson v = canonicalJson w
  | .null, _, _, h => by rw [h]
  | .bool _, _, _, h => by rw [h]
  | .number _, _, _, h => by rw [h]
  | .string _, _, _, h => by rw [h]
  | .array items, _, hdistinct, ⟨items', hw, hsame⟩ => by
      rw [hw, canonicalJson, canonicalJson, canonicalItems_eq_of_same items items' hdistinct hsame]
  | .object members, _, ⟨hkeys, hdistinct⟩, ⟨members', hw, hsame⟩ => by
      have hperm := canonicalMembers_perm_of_same members members' hdistinct hsame
      rw [← map_fst_canonicalMembers] at hkeys
      rw [hw, canonicalJson, canonicalJson, insertionSort_eq_of_perm hperm hkeys]

theorem canonicalItems_eq_of_same : ∀ (items items' : List Json), DistinctItems items →
    SameItems items items' → canonicalItems items = canonicalItems items'
  | [], _, _, h => by rw [h]
  | v :: items, _, ⟨hv, hitems⟩, ⟨w, rest, hw, hsame, hrest⟩ => by
      rw [hw, canonicalItems, canonicalItems, canonicalJson_eq_of_same v w hv hsame,
        canonicalItems_eq_of_same items rest hitems hrest]

theorem canonicalMembers_perm_of_same : ∀ (members members' : List (String × Json)),
    DistinctMembers members → SameMembers members members' →
      (canonicalMembers members).Perm (canonicalMembers members')
  | [], _, _, h => by rw [h]
  | (k, v) :: members, _, ⟨hv, hmembers⟩, ⟨before, w, after, hw, hsame, hrest⟩ => by
      have hhead := canonicalJson_eq_of_same v w hv hsame
      have htail := canonicalMembers_perm_of_same members (before ++ after) hmembers hrest
      rw [canonicalMembers_eq_map (before ++ after), List.map_append] at htail
      rw [hw, canonicalMembers, canonicalMembers_eq_map (before ++ _), List.map_append,
        List.map_cons, hhead]
      exact (htail.cons _).trans List.perm_middle.symm

end

mutual

/-- The canonical form changes nothing but the order of members. -/
theorem sameJson_canonicalJson : ∀ v, SameJson v (canonicalJson v)
  | .null => rfl
  | .bool _ => rfl
  | .number _ => rfl
  | .string _ => rfl
  | .array items => ⟨_, rfl, sameItems_canonicalItems items⟩
  | .object members => ⟨_, rfl, sameMembers_canonicalMembers members⟩

theorem sameItems_canonicalItems : ∀ items, SameItems items (canonicalItems items)
  | [] => rfl
  | v :: items => ⟨_, _, rfl, sameJson_canonicalJson v, sameItems_canonicalItems items⟩

theorem sameMembers_canonicalMembers : ∀ members,
    SameMembers members ((canonicalMembers members).insertionSort byKey)
  | [] => rfl
  | (k, v) :: members => by
      have hrest := sameMembers_canonicalMembers members
      refine ⟨_, canonicalJson v, _, List.orderedInsert_eq_take_drop byKey _ _,
        sameJson_canonicalJson v, ?_⟩
      rw [List.takeWhile_append_dropWhile]
      exact hrest

end

example : canonicalJson (.object [("b", .array [.object [("d", .null), ("c", .null)]]),
      ("a", .bool true)]) =
    .object [("a", .bool true), ("b", .array [.object [("c", .null), ("d", .null)]])] := by
  rfl

/-! ## The signature -/

inductive SigningError where
  | verificationFailed (artifactId : Uuid)
  | serialization (message : String)
  deriving DecidableEq

structure ArtifactSignature where
  value : String
  keyId : String
  algorithm : String
  deriving DecidableEq

structure SignedArtifact where
  artifactId : Uuid
  payload : Payload
  signature : ArtifactSignature

structure ArtifactSigner where
  keyId : String
  keyBytes : List UInt8

structure ArtifactVerifier where
  keyBytes : List UInt8

/-- `sign_bytes`, the same for the signer and the verifier: FNV-1a of the key and the
payload. -/
def signBytes (keyBytes payload : List UInt8) : List UInt8 :=
  toLeBytes ((keyBytes ++ payload).foldl
    (fun state b => (state ^^^ b.toUInt64) * 0x00000100000001b3) 0xcbf29ce484222325)

section Signing

-- `serde_json::to_vec`
variable (toVec : Json → Except String (List UInt8))

def canonicalJsonBytes (value : Json) : Except String (List UInt8) :=
  toVec (canonicalJson value)

def ArtifactSigner.sign (signer : ArtifactSigner) (artifactId : Uuid) (payload : Payload) :
    Except SigningError SignedArtifact :=
  match canonicalJsonBytes toVec payload.value with
  | .error e => .error (.serialization e)
  | .ok canonical =>
      .ok
        { artifactId, payload
          signature :=
            { value := hexEncode (signBytes signer.keyBytes canonical)
              keyId := signer.keyId
              algorithm := "hmac-fnv64" } }

def ArtifactVerifier.verify (verifier : ArtifactVerifier) (artifact : SignedArtifact) :
    Except SigningError Unit :=
  match canonicalJsonBytes toVec artifact.payload.value with
  | .error e => .error (.serialization e)
  | .ok canonical =>
      if hexEncode (signBytes verifier.keyBytes canonical) ≠ artifact.signature.value then
        .error (.verificationFailed artifact.artifactId)
      else .ok ()

/-- What is signed depends on the payload only up to the order of members. -/
theorem sign_signature_eq (signer : ArtifactSigner) (id id' : Uuid) {payload payload' : Payload}
    (h : SameJson payload.value payload'.value) :
    (signer.sign toVec id payload).map SignedArtifact.signature =
      (signer.sign toVec id' payload').map SignedArtifact.signature := by
  have hbytes : canonicalJsonBytes toVec payload.value =
      canonicalJsonBytes toVec payload'.value := by
    unfold canonicalJsonBytes
    rw [canonicalJson_eq_of_same _ _ payload.distinct h]
  unfold ArtifactSigner.sign
  rw [hbytes]
  cases canonicalJsonBytes toVec payload'.value <;> rfl

theorem verify_of_sign (signer : ArtifactSigner) (id : Uuid) (payload : Payload) :
    (∃ e, canonicalJsonBytes toVec payload.value = .error e ∧
      signer.sign toVec id payload = .error (.serialization e)) ∨
    ∃ artifact, signer.sign toVec id payload = .ok artifact ∧ artifact.artifactId = id ∧
      artifact.payload = payload ∧
      (ArtifactVerifier.mk signer.keyBytes).verify toVec artifact = .ok () := by
  unfold ArtifactSigner.sign
  cases hbytes : canonicalJsonBytes toVec payload.value with
  | error e => exact .inl ⟨e, rfl, rfl⟩
  | ok canonical =>
      refine .inr ⟨_, rfl, rfl, rfl, ?_⟩
      unfold ArtifactVerifier.verify
      dsimp only
      rw [hbytes]
      exact if_neg fun hne => hne rfl

/-- Payloads that are equal up to the order of members have the same signature under a key.
Every payload that can be written is signed, and the artifact is accepted under its key. -/
theorem sign_canonical (signer : ArtifactSigner) :
    (∀ id id' payload payload', SameJson payload.value payload'.value →
      (signer.sign toVec id payload).map SignedArtifact.signature =
        (signer.sign toVec id' payload').map SignedArtifact.signature) ∧
    ∀ id payload,
      (∃ e, canonicalJsonBytes toVec payload.value = .error e ∧
        signer.sign toVec id payload = .error (.serialization e)) ∨
      ∃ artifact, signer.sign toVec id payload = .ok artifact ∧ artifact.artifactId = id ∧
        artifact.payload = payload ∧
        (ArtifactVerifier.mk signer.keyBytes).verify toVec artifact = .ok () :=
  ⟨fun id id' _ _ h => sign_signature_eq toVec signer id id' h, verify_of_sign toVec signer⟩

end Signing

end Security

end InfinityOS
