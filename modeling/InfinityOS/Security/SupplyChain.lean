import InfinityOS.Core.Types

/-!
# Trust in supplied components

The check of a component's signature before its installation. The signature is a
keyed hash of the content hash; the results below hold for an arbitrary one, `signHash`
is the one of the source. A record that names no key, or one that is not registered,
is checked with other key bytes than those of a trusted key.
-/

namespace InfinityOS

namespace Security

inductive SupplyChainError where
  | signatureInvalid (name version : String)
  | missingSignature (name version : String)
  deriving DecidableEq

structure ComponentRecord where
  name : String
  version : String
  contentHash : Option String
  signature : Option String
  signatureKeyId : Option String
  deriving DecidableEq

structure SupplyChainVerifier where
  trustedKeys : HashMap String (List UInt8)

def hexEncode (bytes : List UInt8) : String :=
  String.ofList (bytes.flatMap fun b =>
    [Nat.digitChar (b.toNat / 16), Nat.digitChar (b.toNat % 16)])

def asBytes (s : String) : List UInt8 :=
  s.toUTF8.data.toList

def toLeBytes (n : UInt64) : List UInt8 :=
  (List.range 8).map fun i => UInt8.ofNat (n.toNat / 256 ^ i)

namespace SupplyChainVerifier

def signHash (key hash : List UInt8) : List UInt8 :=
  toLeBytes ((key ++ hash).foldl (fun state b => (state ^^^ b.toUInt64) * 0x00000100000001b3)
    0xcbf29ce484222325)

def addTrustedKey (v : SupplyChainVerifier) (keyId : String) (keyBytes : List UInt8) :
    SupplyChainVerifier :=
  { trustedKeys := v.trustedKeys.insert keyId keyBytes }

def keyBytes (v : SupplyChainVerifier) (record : ComponentRecord) : List UInt8 :=
  (v.trustedKeys[record.signatureKeyId.getD ""]?).getD []

def verify (signHash : List UInt8 → List UInt8 → List UInt8) (v : SupplyChainVerifier)
    (record : ComponentRecord) : Except SupplyChainError Unit :=
  match record.contentHash with
  | none => .error (.missingSignature record.name record.version)
  | some contentHash =>
      match record.signature with
      | none => .error (.missingSignature record.name record.version)
      | some signature =>
          if hexEncode (signHash (v.keyBytes record) (asBytes contentHash)) ≠ signature then
            .error (.signatureInvalid record.name record.version)
          else
            .ok ()

section Trust

variable (signHash : List UInt8 → List UInt8 → List UInt8) (v : SupplyChainVerifier)
  (record : ComponentRecord)

/-- The signature is made with a registered key that the record names. -/
def Trusted : Prop :=
  ∃ keyId bytes contentHash, record.signatureKeyId = some keyId ∧
    v.trustedKeys[keyId]? = some bytes ∧ record.contentHash = some contentHash ∧
      record.signature = some (hexEncode (signHash bytes (asBytes contentHash)))

def NamesKey : Prop :=
  ∃ keyId bytes, record.signatureKeyId = some keyId ∧ v.trustedKeys[keyId]? = some bytes

/-- The record names a registered key, or it lacks what is checked. -/
def Attributed : Prop :=
  v.NamesKey record ∨ record.contentHash = none ∨ record.signature = none

theorem verify_eq_ok_iff :
    v.verify signHash record = .ok () ↔ ∃ contentHash, record.contentHash = some contentHash ∧
      record.signature = some (hexEncode (signHash (v.keyBytes record) (asBytes contentHash))) := by
  unfold verify
  cases hhash : record.contentHash with
  | none => simp
  | some contentHash =>
      cases hsignature : record.signature with
      | none => simp
      | some signature =>
          by_cases heq : hexEncode (signHash (v.keyBytes record) (asBytes contentHash)) = signature
          · simp [heq]
          · simp [heq, Ne.symm heq]

theorem keyBytes_of_named {keyId : String} {bytes : List UInt8}
    (hkey : record.signatureKeyId = some keyId) (hbytes : v.trustedKeys[keyId]? = some bytes) :
    v.keyBytes record = bytes := by
  rw [keyBytes, hkey, Option.getD_some, hbytes, Option.getD_some]

theorem trusted_of_attributed (h : v.Attributed record)
    (haccepted : v.verify signHash record = .ok ()) : v.Trusted signHash record := by
  obtain ⟨contentHash, hhash, hsignature⟩ := (verify_eq_ok_iff signHash v record).mp haccepted
  rcases h with ⟨keyId, bytes, hkey, hbytes⟩ | hnone | hnone
  · rw [keyBytes_of_named v record hkey hbytes] at hsignature
    exact ⟨keyId, bytes, contentHash, hkey, hbytes, hhash, hsignature⟩
  · rw [hnone] at hhash
    cases hhash
  · rw [hnone] at hsignature
    cases hsignature

theorem exists_accepted {contentHash : String} (hhash : record.contentHash = some contentHash) :
    ∃ signature, v.verify signHash { record with signature := some signature } = .ok () := by
  refine ⟨hexEncode (signHash (v.keyBytes record) (asBytes contentHash)), ?_⟩
  rw [verify_eq_ok_iff]
  exact ⟨contentHash, hhash, rfl⟩

/-- An accepted record is trusted if it names a registered key or lacks a content hash or a
signature. Where anyone may choose the signature, the others are the records that an untrusted
signature is accepted on. -/
theorem verify_sound_iff :
    (v.Attributed record → v.verify signHash record = .ok () → v.Trusted signHash record) ∧
      ((∀ signature, v.verify signHash { record with signature := signature } = .ok () →
          v.Trusted signHash { record with signature := signature }) ↔
        v.NamesKey record ∨ record.contentHash = none) := by
  refine ⟨trusted_of_attributed signHash v record, fun h => ?_, fun h signature => ?_⟩
  · cases hhash : record.contentHash with
    | none => exact .inr rfl
    | some contentHash =>
        obtain ⟨signature, haccepted⟩ := exists_accepted signHash v record hhash
        obtain ⟨keyId, bytes, -, hkey, hbytes, -⟩ := h (some signature) haccepted
        exact .inl ⟨keyId, bytes, hkey, hbytes⟩
  · apply trusted_of_attributed
    rcases h with hnamed | hnone
    · exact .inl hnamed
    · exact .inr (.inl hnone)

end Trust

/-- A component signed with a registered key. -/
theorem verify_sound_iff_release :
    Trusted signHash (addTrustedKey ⟨∅⟩ "release" [1, 2, 3])
      ⟨"lib", "1.0", some "abc", some "75078378146f9d81", some "release"⟩ := by
  apply (verify_sound_iff _ _ _).1
  · exact .inl ⟨"release", [1, 2, 3], rfl, by decide⟩
  · decide

/-- A record that anyone can make is accepted by a verifier that trusts no key. -/
theorem exists_forged :
    verify signHash ⟨∅⟩ ⟨"lib", "1.0", some "abc", some "4b57410519a21fe7", none⟩ = .ok () ∧
      ¬ Trusted signHash ⟨∅⟩ ⟨"lib", "1.0", some "abc", some "4b57410519a21fe7", none⟩ := by
  constructor
  · decide
  · intro h
    obtain ⟨keyId, bytes, contentHash, hkey, -⟩ := h
    cases hkey

end SupplyChainVerifier

end Security

end InfinityOS
