import CatalogSentinel.Data.Base64
import CatalogSentinel.Data.Buffers

/-!
Envelopes for references that are stored: a fresh data key encrypts the text and is itself wrapped, and
the fields are written in base64 and joined by dots. There is a version that wraps with a key of its own
and one that leaves this to a wrapper. A field is read only if writing what was read gives it back, so
each byte string has one field, and a version reads no blob of the other.
-/

namespace CatalogSentinel.Security

open Data Data.Utf16

/-- A buffer of so many bytes. -/
abbrev Bytes (n : ℕ) := { buffer : List Byte // buffer.length = n }

/-- The platform's AES-256-GCM: a text is enciphered to a tag and as many bytes, and deciphered from them. -/
structure Aes256Gcm where
  encipher : Bytes 32 → Bytes 12 → List Byte → Bytes 16 × List Byte
  decipher : Bytes 32 → Bytes 12 → Bytes 16 → List Byte → Option (List Byte)
  decipher_encipher : ∀ key iv plaintext,
    decipher key iv (encipher key iv plaintext).1 (encipher key iv plaintext).2 = some plaintext
  length_encipher : ∀ key iv plaintext, (encipher key iv plaintext).2.length = plaintext.length

/-! ### Fields -/

/-- `buffer.toString('base64')` -/
def toBase64 (buffer : List Byte) : Utf16 := (Base64.encode buffer).map unit

/-- `Buffer.from(text, 'base64')` -/
def fromBase64 (text : Utf16) : List Byte := Base64.decode (text.map Fin.val)

def malformedMasterKey : String := "ENCRYPTION_MASTER_KEY must be canonical base64 for exactly 32 random bytes."

def decodeMasterKeyBase64 (value : Utf16) : Except String (Bytes 32) :=
  let canonical := trim value
  -- `/^[A-Za-z0-9+/]{43}=$/`
  if !(canonical.length = 44 && (canonical.take 43).all (Base64.isLetter ·.val) && canonical[43]? = some (unit 61)) then
    .error malformedMasterKey
  else if h : (fromBase64 canonical).length = 32 then
    if toBase64 (fromBase64 canonical) ≠ canonical then .error malformedMasterKey else .ok ⟨fromBase64 canonical, h⟩
  else .error malformedMasterKey

def decodeCanonicalBase64 (value : Utf16) (label : String) (maximumBytes : Option ℕ) (allowEmpty : Bool) :
    Except String (List Byte) :=
  if (value.length = 0 && !allowEmpty) || value.length % 4 ≠ 0 || !Base64.isPadded (value.map Fin.val) then
    .error s!"Malformed {label}."
  else
    let decoded := fromBase64 value
    if toBase64 decoded ≠ value || maximumBytes.any fun maximum => decoded.length > maximum then
      .error s!"Malformed {label}."
    else .ok decoded

/-! ### The cipher -/

variable (gcm : Aes256Gcm)

structure Sealed where
  iv : Bytes 12
  tag : Bytes 16
  ct : List Byte

def gcmEncrypt (key : Bytes 32) (iv : Bytes 12) (plaintext : List Byte) : Sealed :=
  ⟨iv, (gcm.encipher key iv plaintext).1, (gcm.encipher key iv plaintext).2⟩

def gcmDecrypt (key iv tag ct : List Byte) : Except String (List Byte) :=
  if h : key.length = 32 ∧ iv.length = 12 ∧ tag.length = 16 then
    match gcm.decipher ⟨key, h.1⟩ ⟨iv, h.2.1⟩ ⟨tag, h.2.2⟩ ct with
    | some plaintext => .ok plaintext
    | none => .error "Unsupported state or unable to authenticate data"
  else .error "Malformed envelope cipher parameters."

def gcmEncryptUtf8 (key : Bytes 32) (iv : Bytes 12) (plaintext : Utf16) : Sealed :=
  gcmEncrypt gcm key iv (utf8 plaintext)

def gcmDecryptUtf8 (key iv tag ct : List Byte) : Except String Utf16 :=
  (gcmDecrypt gcm key iv tag ct).map ofUtf8

/-- The fields that both versions end with. -/
def decryptData (dek : List Byte) (dIv dTag dCt : Utf16) : Except String Utf16 := do
  let iv ← decodeCanonicalBase64 dIv "data IV" (some 12) false
  let tag ← decodeCanonicalBase64 dTag "data tag" (some 16) false
  let ct ← decodeCanonicalBase64 dCt "ciphertext" none true
  gcmDecryptUtf8 gcm dek iv tag ct

def dot : CodeUnit := unit 46

/-! ### The local version -/

structure EnvelopeEncryptor where
  ephemeral : Bool
  kek : Bytes 32

/-- What `randomBytes` gives while a text is encrypted. -/
structure Draws where
  dek : Bytes 32
  dataIv : Bytes 12
  wrapIv : Bytes 12

namespace EnvelopeEncryptor

/-- `new EnvelopeEncryptor(masterKeyBase64)`, with a key drawn for where none is given -/
def create (masterKeyBase64 : Option Utf16) (drawn : Bytes 32) : Except String EnvelopeEncryptor :=
  match masterKeyBase64 with
  | some masterKey =>
    if trim masterKey ≠ [] then (decodeMasterKeyBase64 masterKey).map fun kek => ⟨false, kek⟩ else .ok ⟨true, drawn⟩
  | none => .ok ⟨true, drawn⟩

def encrypt (e : EnvelopeEncryptor) (draws : Draws) (plaintext : Utf16) : Utf16 :=
  let data := gcmEncryptUtf8 gcm draws.dek draws.dataIv plaintext
  let wrapped := gcmEncrypt gcm e.kek draws.wrapIv draws.dek
  [dot].intercalate [ofString "v1", toBase64 wrapped.iv, toBase64 wrapped.tag, toBase64 wrapped.ct,
    toBase64 data.iv, toBase64 data.tag, toBase64 data.ct]

def decrypt (e : EnvelopeEncryptor) (blob : Utf16) : Except String Utf16 :=
  match blob.splitOn dot with
  | [version, wIv, wTag, wDek, dIv, dTag, dCt] =>
    if version ≠ ofString "v1" then .error "Malformed local envelope blob."
    else do
      let iv ← decodeCanonicalBase64 wIv "wrapped-key IV" (some 12) false
      let tag ← decodeCanonicalBase64 wTag "wrapped-key tag" (some 16) false
      let ct ← decodeCanonicalBase64 wDek "wrapped data key" (some 32) false
      let dek ← gcmDecrypt gcm e.kek iv tag ct
      decryptData gcm dek dIv dTag dCt
  | _ => .error "Malformed local envelope blob."

end EnvelopeEncryptor

/-! ### Wrappers -/

inductive WrapperName
  | local
  | awsKms
  deriving DecidableEq

def WrapperName.text : WrapperName → String
  | .local => "local"
  | .awsKms => "aws-kms"

/-- A wrapper wraps by what it draws or is answered. -/
structure KeyWrapper (R : Type) where
  name : WrapperName
  wrap : R → List Byte → Except String Utf16
  unwrap : Utf16 → Except String (List Byte)

def LocalKeyWrapper (kek : Bytes 32) : KeyWrapper (Bytes 12) where
  name := .local
  wrap iv dek :=
    if dek.length ≠ 32 then .error "Envelope DEK must be exactly 32 bytes."
    else
      let sealed := gcmEncrypt gcm kek iv dek
      .ok (toBase64 (sealed.iv.val ++ sealed.tag.val ++ sealed.ct))
  unwrap wrapped := do
    let buf ← decodeCanonicalBase64 wrapped "local wrapped data key" (some 60) false
    if buf.length ≠ 60 then .error "Malformed local wrapped data key."
    else gcmDecrypt gcm kek (buf.take 12) ((buf.drop 12).take 16) (buf.drop 28)

structure KmsEncryptInput where
  KeyId : String
  Plaintext : List Byte
  EncryptionAlgorithm : String
  EncryptionContext : List (String × String)

structure KmsDecryptInput where
  KeyId : String
  CiphertextBlob : List Byte
  EncryptionAlgorithm : String
  EncryptionContext : List (String × String)

/-- The service, by what it meets when it is asked to encrypt. -/
structure KmsClientLike (R : Type) where
  encrypt : R → KmsEncryptInput → Except String (List Byte)
  decrypt : KmsDecryptInput → Except String (List Byte)

/-- What was encrypted under a key and a context is decrypted under them. -/
def KmsClientLike.Inverts {R : Type} (client : KmsClientLike R) : Prop :=
  ∀ r keyId plaintext algorithm context blob, client.encrypt r ⟨keyId, plaintext, algorithm, context⟩ = .ok blob →
    client.decrypt ⟨keyId, blob, algorithm, context⟩ = .ok plaintext

def KmsKeyWrapper {R : Type} (client : KmsClientLike R) (keyId : String) (context : List (String × String)) :
    KeyWrapper R where
  name := .awsKms
  wrap r dek :=
    if dek.length ≠ 32 then .error "Envelope DEK must be exactly 32 bytes."
    else do
      let wrapped ← client.encrypt r ⟨keyId, dek, "SYMMETRIC_DEFAULT", context⟩
      if wrapped.length = 0 || wrapped.length > 6144 then .error "AWS KMS returned an invalid wrapped data key."
      else .ok (toBase64 wrapped)
  unwrap wrapped := do
    let ciphertext ← decodeCanonicalBase64 wrapped "KMS wrapped data key" (some 6144) false
    let dek ← client.decrypt ⟨keyId, ciphertext, "SYMMETRIC_DEFAULT", context⟩
    if dek.length ≠ 32 then .error "AWS KMS returned an invalid data key." else .ok dek

/-! ### The version with a wrapper -/

structure AsyncEnvelopeEncryptor (R : Type) where
  wrapper : KeyWrapper R

namespace AsyncEnvelopeEncryptor

variable {R : Type}

def encrypt (e : AsyncEnvelopeEncryptor R) (dek : Bytes 32) (iv : Bytes 12) (r : R) (plaintext : Utf16) :
    Except String Utf16 := do
  let data := gcmEncryptUtf8 gcm dek iv plaintext
  let wrappedDek ← e.wrapper.wrap r dek
  return [dot].intercalate [ofString "v2", ofString e.wrapper.name.text, wrappedDek, toBase64 data.iv,
    toBase64 data.tag, toBase64 data.ct]

def decrypt (e : AsyncEnvelopeEncryptor R) (blob : Utf16) : Except String Utf16 :=
  match blob.splitOn dot with
  | [version, name, wrappedDek, dIv, dTag, dCt] =>
    if version ≠ ofString "v2" || name ≠ ofString e.wrapper.name.text then
      .error "Malformed or incompatible v2 envelope blob."
    else do
      let dek ← e.wrapper.unwrap wrappedDek
      decryptData gcm dek dIv dTag dCt
  | _ => .error "Malformed or incompatible v2 envelope blob."

end AsyncEnvelopeEncryptor

/-! ### Canonical fields -/

variable {gcm}

theorem map_val_toBase64 (buffer : List Byte) : (toBase64 buffer).map Fin.val = Base64.encode buffer := by
  rw [toBase64, List.map_map]
  refine (List.map_congr_left fun code hcode => ?_).trans (List.map_id _)
  exact unit_val (Base64.encode_lt hcode)

theorem fromBase64_toBase64 (buffer : List Byte) : fromBase64 (toBase64 buffer) = buffer := by
  rw [fromBase64, map_val_toBase64, Base64.decode_encode]

theorem toBase64_eq_nil {buffer : List Byte} : toBase64 buffer = [] ↔ buffer = [] := by
  rw [toBase64, List.map_eq_nil_iff, Base64.encode_eq_nil]

theorem dot_notMem_toBase64 (buffer : List Byte) : dot ∉ toBase64 buffer := by
  intro hmem
  obtain ⟨code, hcode, hdot⟩ := List.mem_map.1 hmem
  have hval := congrArg Fin.val hdot
  rw [unit_val (Base64.encode_lt hcode), dot, unit_val (by omega)] at hval
  subst hval
  rcases Base64.mem_encode hcode with hletter | hpadding
  · exact (Base64.ne_of_isLetter hletter).2 rfl
  · cases hpadding

/-- A field of so many bytes, and of some where none is not allowed. -/
structure Allowed (buffer : List Byte) (maximumBytes : Option ℕ) (allowEmpty : Bool) : Prop where
  maximum : ∀ maximum ∈ maximumBytes, buffer.length ≤ maximum
  given : buffer = [] → allowEmpty = true

/-- What is accepted is what some bytes are written as. -/
theorem decodeCanonicalBase64_eq_ok {value : Utf16} {label : String} {maximumBytes : Option ℕ} {allowEmpty : Bool}
    {buffer : List Byte} : decodeCanonicalBase64 value label maximumBytes allowEmpty = .ok buffer ↔
      value = toBase64 buffer ∧ Allowed buffer maximumBytes allowEmpty := by
  unfold decodeCanonicalBase64
  constructor
  · intro h
    split at h
    · cases h
    · rename_i hshape
      dsimp only at h
      split at h
      · cases h
      · rename_i hwritten
        cases h
        simp only [Bool.or_eq_true, decide_eq_true_eq, not_or, not_not, Option.any_eq_true, not_exists, not_and,
          Nat.not_lt] at hwritten
        refine ⟨hwritten.1.symm, hwritten.2, fun hempty => ?_⟩
        simp only [Bool.or_eq_true, Bool.and_eq_true, decide_eq_true_eq, not_or, not_and] at hshape
        have hnone : value.length = 0 := by rw [← hwritten.1, toBase64_eq_nil.2 hempty, List.length_nil]
        simpa using hshape.1.1 hnone
  · rintro ⟨rfl, hallowed⟩
    have hempty : ((toBase64 buffer).length = 0 && !allowEmpty) = false := by
      cases buffer with
      | nil => simp [hallowed.given rfl]
      | cons a buffer =>
        have hne : toBase64 (a :: buffer) ≠ [] := fun h => List.cons_ne_nil a buffer (toBase64_eq_nil.1 h)
        simp [List.length_eq_zero_iff, hne]
    have hlength : (toBase64 buffer).length % 4 = 0 := by
      rw [toBase64, List.length_map, Base64.length_encode_mod]
    have hmaximum : (maximumBytes.any fun maximum => decide (buffer.length > maximum)) = false := by
      rw [Option.any_eq_false]
      intro maximum h
      simpa using hallowed.maximum maximum h
    simp only [map_val_toBase64, Base64.isPadded_encode, hempty, hlength, fromBase64_toBase64, hmaximum]
    simp

/-- The field of some bytes is read as them. -/
theorem decodeCanonicalBase64_toBase64 {buffer : List Byte} (label : String) {maximumBytes : Option ℕ}
    {allowEmpty : Bool} (h : Allowed buffer maximumBytes allowEmpty) :
    decodeCanonicalBase64 (toBase64 buffer) label maximumBytes allowEmpty = .ok buffer :=
  decodeCanonicalBase64_eq_ok.2 ⟨rfl, h⟩

theorem allowed_bytes {n : ℕ} (hn : n ≠ 0) (buffer : Bytes n) : Allowed buffer.val (some n) false where
  maximum := by simp [buffer.property]
  given h := by
    have hlength := buffer.property
    rw [h, List.length_nil] at hlength
    exact absurd hlength.symm hn

/-! ### Round trips -/

theorem gcmDecrypt_gcmEncrypt (key : Bytes 32) (iv : Bytes 12) (plaintext : List Byte) :
    gcmDecrypt gcm key (gcmEncrypt gcm key iv plaintext).iv (gcmEncrypt gcm key iv plaintext).tag
      (gcmEncrypt gcm key iv plaintext).ct = .ok plaintext := by
  rw [gcmDecrypt, dif_pos ⟨key.property, (gcmEncrypt gcm key iv plaintext).iv.property,
    (gcmEncrypt gcm key iv plaintext).tag.property⟩]
  simp only [gcmEncrypt, gcm.decipher_encipher]

/-- The data's fields are read as the text, lone surrogates replaced. -/
theorem decryptData_gcmEncryptUtf8 (dek : Bytes 32) (iv : Bytes 12) (plaintext : Utf16) :
    decryptData gcm dek (toBase64 (gcmEncryptUtf8 gcm dek iv plaintext).iv)
      (toBase64 (gcmEncryptUtf8 gcm dek iv plaintext).tag) (toBase64 (gcmEncryptUtf8 gcm dek iv plaintext).ct) =
      .ok (toWellFormed plaintext) := by
  have hiv := allowed_bytes (by omega) (gcmEncryptUtf8 gcm dek iv plaintext).iv
  have htag := allowed_bytes (by omega) (gcmEncryptUtf8 gcm dek iv plaintext).tag
  have hct : Allowed (gcmEncryptUtf8 gcm dek iv plaintext).ct none true := ⟨by simp, fun _ => rfl⟩
  have hdata : gcmDecryptUtf8 gcm dek (gcmEncryptUtf8 gcm dek iv plaintext).iv
      (gcmEncryptUtf8 gcm dek iv plaintext).tag (gcmEncryptUtf8 gcm dek iv plaintext).ct =
      .ok (toWellFormed plaintext) := by
    rw [gcmDecryptUtf8, gcmEncryptUtf8, gcmDecrypt_gcmEncrypt, Except.map, ofUtf8_utf8]
  simp only [decryptData, decodeCanonicalBase64_toBase64 _ hiv, decodeCanonicalBase64_toBase64 _ htag,
    decodeCanonicalBase64_toBase64 _ hct, bind, Except.bind, hdata]

/-- Fields that hold no dot are cut apart where they were joined. -/
theorem splitOn_joined {fields : List Utf16} (hne : fields ≠ []) (hfields : ∀ field ∈ fields, dot ∉ field) :
    ([dot].intercalate fields).splitOn dot = fields :=
  List.splitOn_intercalate dot hfields hne

theorem dot_notMem_words : dot ∉ ofString "v1" ∧ dot ∉ ofString "v2" ∧ ∀ name : WrapperName, dot ∉ ofString name.text := by
  refine ⟨by decide, by decide, ?_⟩
  rintro (_ | _) <;> decide

theorem EnvelopeEncryptor.decrypt_encrypt (e : EnvelopeEncryptor) (draws : Draws) (plaintext : Utf16) :
    e.decrypt gcm (e.encrypt gcm draws plaintext) = .ok (toWellFormed plaintext) := by
  set wrapped := gcmEncrypt gcm e.kek draws.wrapIv draws.dek with hwrapped
  have hsplit : (e.encrypt gcm draws plaintext).splitOn dot = _ := splitOn_joined (List.cons_ne_nil _ _) (by
    simp only [List.forall_mem_cons, dot_notMem_words.1, dot_notMem_toBase64, not_false_eq_true, true_and]
    exact fun _ h => absurd h List.not_mem_nil)
  have hct : Allowed wrapped.ct (some 32) false := by
    have hlength : wrapped.ct.length = 32 := (gcm.length_encipher _ _ _).trans draws.dek.property
    exact allowed_bytes (by omega) ⟨wrapped.ct, hlength⟩
  have hiv := allowed_bytes (by omega) wrapped.iv
  have htag := allowed_bytes (by omega) wrapped.tag
  have hdek : gcmDecrypt gcm e.kek wrapped.iv wrapped.tag wrapped.ct = .ok draws.dek := gcmDecrypt_gcmEncrypt _ _ _
  unfold EnvelopeEncryptor.decrypt
  rw [hsplit]
  simp only [ne_eq, not_true, if_false, ← hwrapped, decodeCanonicalBase64_toBase64 _ hiv,
    decodeCanonicalBase64_toBase64 _ htag, decodeCanonicalBase64_toBase64 _ hct, bind, Except.bind, hdek]
  exact decryptData_gcmEncryptUtf8 _ _ _

/-- A data key is wrapped as some bytes in base64, and unwrapped from them. -/
structure KeyWrapper.Lawful {R : Type} (wrapper : KeyWrapper R) : Prop where
  canonical : ∀ {r : R} {dek : Bytes 32} {wrapped : Utf16}, wrapper.wrap r dek = .ok wrapped →
    ∃ buffer ≠ [], wrapped = toBase64 buffer
  unwrap_wrap : ∀ {r : R} {dek : Bytes 32} {wrapped : Utf16}, wrapper.wrap r dek = .ok wrapped →
    wrapper.unwrap wrapped = .ok dek

/-- Whatever a wrapper wraps its key as, the text comes back. -/
theorem AsyncEnvelopeEncryptor.decrypt_encrypt {R : Type} {e : AsyncEnvelopeEncryptor R} (hlawful : e.wrapper.Lawful)
    {dek : Bytes 32} {r : R} {wrapped : Utf16} (hwrap : e.wrapper.wrap r dek = .ok wrapped) (iv : Bytes 12)
    (plaintext : Utf16) : ∃ blob, e.encrypt gcm dek iv r plaintext = .ok blob ∧
      e.decrypt gcm blob = .ok (toWellFormed plaintext) := by
  obtain ⟨buffer, -, rfl⟩ := hlawful.canonical hwrap
  refine ⟨_, by simp only [AsyncEnvelopeEncryptor.encrypt, hwrap, bind, Except.bind, pure, Except.pure]; rfl, ?_⟩
  unfold AsyncEnvelopeEncryptor.decrypt
  rw [splitOn_joined (List.cons_ne_nil _ _) (by
    simp only [List.forall_mem_cons, dot_notMem_words.2.1, dot_notMem_words.2.2, dot_notMem_toBase64,
      not_false_eq_true, true_and]
    exact fun _ h => absurd h List.not_mem_nil)]
  simp only [ne_eq, not_true, decide_false, Bool.or_self, Bool.false_eq_true, if_false, hlawful.unwrap_wrap hwrap, bind,
    Except.bind]
  exact decryptData_gcmEncryptUtf8 _ _ _

theorem lawful_LocalKeyWrapper (kek : Bytes 32) : (LocalKeyWrapper gcm kek).Lawful := by
  -- What is wrapped is the IV, the tag and the enciphered key, of sixty bytes together.
  have hcut : ∀ {iv : Bytes 12} {dek : Bytes 32} {wrapped : Utf16}, (LocalKeyWrapper gcm kek).wrap iv dek = .ok wrapped →
      ∃ (tag : Bytes 16) (ct : Bytes 32), wrapped = toBase64 (iv.val ++ (tag.val ++ ct.val)) ∧
        gcmDecrypt gcm kek iv tag ct = .ok dek.val := by
    intro iv dek wrapped h
    have hlength : ¬ dek.val.length ≠ 32 := not_not.2 dek.property
    simp only [LocalKeyWrapper, if_neg hlength, Except.ok.injEq] at h
    refine ⟨(gcmEncrypt gcm kek iv dek).tag, ⟨_, (gcm.length_encipher kek iv dek).trans dek.property⟩, ?_,
      gcmDecrypt_gcmEncrypt kek iv dek⟩
    rw [← h, List.append_assoc]
    rfl
  constructor
  · intro iv dek wrapped h
    obtain ⟨tag, ct, rfl, -⟩ := hcut h
    refine ⟨_, fun hnil => ?_, rfl⟩
    have hlength := congrArg List.length hnil
    simp [iv.property] at hlength
  · intro iv dek wrapped h
    obtain ⟨tag, ct, rfl, hdek⟩ := hcut h
    have hlength : (iv.val ++ (tag.val ++ ct.val)).length = 60 := by
      simp [iv.property, tag.property, ct.property]
    have hallowed := allowed_bytes (by omega) ⟨iv.val ++ (tag.val ++ ct.val), hlength⟩
    have hiv : (iv.val ++ (tag.val ++ ct.val)).take 12 = iv.val := List.take_left' iv.property
    have hrest : (iv.val ++ (tag.val ++ ct.val)).drop 12 = tag.val ++ ct.val := List.drop_left' iv.property
    have htag : (tag.val ++ ct.val).take 16 = tag.val := List.take_left' tag.property
    have hct : (iv.val ++ (tag.val ++ ct.val)).drop 28 = ct.val := by
      rw [show 28 = 12 + 16 from rfl, ← List.drop_drop, hrest, List.drop_left' tag.property]
    simp only [LocalKeyWrapper, decodeCanonicalBase64_toBase64 _ hallowed, bind, Except.bind, hlength, ne_eq, not_true,
      if_false, hiv, hrest, htag, hct, hdek]

theorem lawful_KmsKeyWrapper {R : Type} {client : KmsClientLike R} (hclient : client.Inverts) (keyId : String)
    (context : List (String × String)) : (KmsKeyWrapper client keyId context).Lawful := by
  have hcut : ∀ {r : R} {dek : Bytes 32} {wrapped : Utf16}, (KmsKeyWrapper client keyId context).wrap r dek = .ok wrapped →
      ∃ blob : List Byte, wrapped = toBase64 blob ∧ blob ≠ [] ∧ blob.length ≤ 6144 ∧
        client.decrypt ⟨keyId, blob, "SYMMETRIC_DEFAULT", context⟩ = .ok dek.val := by
    intro r dek wrapped h
    have hlength : ¬ dek.val.length ≠ 32 := not_not.2 dek.property
    simp only [KmsKeyWrapper, if_neg hlength] at h
    cases hblob : client.encrypt r ⟨keyId, dek, "SYMMETRIC_DEFAULT", context⟩ with
    | error e => simp [hblob, bind, Except.bind] at h
    | ok blob =>
      simp only [hblob, bind, Except.bind] at h
      split at h
      · cases h
      · rename_i hvalid
        simp only [Bool.or_eq_true, decide_eq_true_eq, not_or, Nat.not_lt, List.length_eq_zero_iff] at hvalid
        cases h
        exact ⟨blob, rfl, hvalid.1, hvalid.2, hclient _ _ _ _ _ _ hblob⟩
  constructor
  · intro r dek wrapped h
    obtain ⟨blob, rfl, hne, -, -⟩ := hcut h
    exact ⟨blob, hne, rfl⟩
  · intro r dek wrapped h
    obtain ⟨blob, rfl, hne, hmaximum, hdek⟩ := hcut h
    have hallowed : Allowed blob (some 6144) false := ⟨by simpa using hmaximum, fun hnil => absurd hnil hne⟩
    simp only [KmsKeyWrapper, decodeCanonicalBase64_toBase64 _ hallowed, bind, Except.bind, hdek, dek.property, ne_eq,
      not_true, if_false]

/-- Every well-formed text comes back from a version with a wrapper that there is: with the local one
always, and with one whose service answers, if the service decrypts what it encrypted. -/
theorem wrapped_roundTrip (gcm : Aes256Gcm) :
    (∀ (kek dek : Bytes 32) (iv wrapIv : Bytes 12) (plaintext : Utf16), IsWellFormed plaintext →
      ∃ blob, (AsyncEnvelopeEncryptor.mk (LocalKeyWrapper gcm kek)).encrypt gcm dek iv wrapIv plaintext = .ok blob ∧
        (AsyncEnvelopeEncryptor.mk (LocalKeyWrapper gcm kek)).decrypt gcm blob = .ok plaintext) ∧
    ∀ (R : Type) (client : KmsClientLike R) keyId context, client.Inverts →
      ∀ (dek : Bytes 32) (iv : Bytes 12) (r : R) (plaintext blob : Utf16), IsWellFormed plaintext →
        (AsyncEnvelopeEncryptor.mk (KmsKeyWrapper client keyId context)).encrypt gcm dek iv r plaintext = .ok blob →
        (AsyncEnvelopeEncryptor.mk (KmsKeyWrapper client keyId context)).decrypt gcm blob = .ok plaintext := by
  refine ⟨fun kek dek iv wrapIv plaintext hwell => ?_,
    fun R client keyId context hclient dek iv r plaintext blob hwell h => ?_⟩
  · have hwrap : ∃ wrapped, (LocalKeyWrapper gcm kek).wrap wrapIv dek = .ok wrapped := by
      simp [LocalKeyWrapper, dek.property]
    obtain ⟨wrapped, hwrap⟩ := hwrap
    obtain ⟨blob, hblob, hdecrypt⟩ :=
      AsyncEnvelopeEncryptor.decrypt_encrypt (lawful_LocalKeyWrapper kek) hwrap iv plaintext
    exact ⟨blob, hblob, hwell ▸ hdecrypt⟩
  · cases hwrap : (KmsKeyWrapper client keyId context).wrap r dek with
    | error message => simp [AsyncEnvelopeEncryptor.encrypt, hwrap, bind, Except.bind] at h
    | ok wrapped =>
      obtain ⟨blob', hblob, hdecrypt⟩ :=
        AsyncEnvelopeEncryptor.decrypt_encrypt (lawful_KmsKeyWrapper hclient keyId context) hwrap iv plaintext
      obtain rfl : blob = blob' := Except.ok.inj (h.symm.trans hblob)
      rwa [hwell] at hdecrypt

/-! ### Formats apart -/

/-- What the local version reads begins with its name. -/
theorem EnvelopeEncryptor.field_of_decrypt {e : EnvelopeEncryptor} {blob text : Utf16} (h : e.decrypt gcm blob = .ok text) :
    (blob.splitOn dot).head? = some (ofString "v1") := by
  unfold EnvelopeEncryptor.decrypt at h
  split at h
  · rename_i hsplit
    split at h
    · cases h
    · rename_i hversion
      rw [hsplit]
      exact congrArg some (not_not.1 hversion)
  · cases h

/-- What the other reads begins with its name and the wrapper's. -/
theorem AsyncEnvelopeEncryptor.fields_of_decrypt {R : Type} {e : AsyncEnvelopeEncryptor R} {blob text : Utf16}
    (h : e.decrypt gcm blob = .ok text) :
    (blob.splitOn dot).head? = some (ofString "v2") ∧ (blob.splitOn dot)[1]? = some (ofString e.wrapper.name.text) := by
  unfold AsyncEnvelopeEncryptor.decrypt at h
  split at h
  · rename_i hsplit
    split at h
    · cases h
    · rename_i hversion
      simp only [ne_eq, Bool.or_eq_true, decide_eq_true_eq, not_or, not_not] at hversion
      rw [hsplit]
      exact ⟨congrArg some hversion.1, congrArg some hversion.2⟩
  · cases h

theorem WrapperName.text_inj {name other : WrapperName} (h : ofString name.text = ofString other.text) : name = other := by
  revert h
  cases name <;> cases other <;> decide

/-! ### The law -/

/-- Every well-formed text comes back from both versions; a field is accepted exactly if it is what some
bytes of an allowed length are written as, so no other is read as them; and a version reads no blob of
the other, nor one of another wrapper. -/
theorem envelope_roundTrip (gcm : Aes256Gcm) :
    (∀ (e : EnvelopeEncryptor) (draws : Draws) (plaintext : Utf16), IsWellFormed plaintext →
      e.decrypt gcm (e.encrypt gcm draws plaintext) = .ok plaintext) ∧
    (∀ (R : Type) (e : AsyncEnvelopeEncryptor R), e.wrapper.Lawful →
      ∀ (dek : Bytes 32) (iv : Bytes 12) (r : R) (wrapped plaintext : Utf16), e.wrapper.wrap r dek = .ok wrapped →
        IsWellFormed plaintext →
        ∃ blob, e.encrypt gcm dek iv r plaintext = .ok blob ∧ e.decrypt gcm blob = .ok plaintext) ∧
    (∀ value label maximumBytes allowEmpty buffer,
      decodeCanonicalBase64 value label maximumBytes allowEmpty = .ok buffer ↔
        value = toBase64 buffer ∧ Allowed buffer maximumBytes allowEmpty) ∧
    (∀ value value' label label' maximumBytes maximumBytes' allowEmpty allowEmpty' buffer,
      decodeCanonicalBase64 value label maximumBytes allowEmpty = .ok buffer →
      decodeCanonicalBase64 value' label' maximumBytes' allowEmpty' = .ok buffer → value = value') ∧
    (∀ (R : Type) (e : EnvelopeEncryptor) (e' : AsyncEnvelopeEncryptor R) (blob : Utf16),
      ((∃ text, e.decrypt gcm blob = .ok text) → (blob.splitOn dot).head? = some (ofString "v1")) ∧
      ((∃ text, e'.decrypt gcm blob = .ok text) → (blob.splitOn dot).head? = some (ofString "v2") ∧
        (blob.splitOn dot)[1]? = some (ofString e'.wrapper.name.text)) ∧
      ¬ ((∃ text, e.decrypt gcm blob = .ok text) ∧ ∃ text, e'.decrypt gcm blob = .ok text)) ∧
    ∀ (R R' : Type) (e : AsyncEnvelopeEncryptor R) (e' : AsyncEnvelopeEncryptor R') (blob : Utf16),
      e.wrapper.name ≠ e'.wrapper.name →
      ¬ ((∃ text, e.decrypt gcm blob = .ok text) ∧ ∃ text, e'.decrypt gcm blob = .ok text) := by
  refine ⟨fun e draws plaintext hwell => ?_, fun R e hlawful dek iv r wrapped plaintext hwrap hwell => ?_,
    fun _ _ _ _ _ => decodeCanonicalBase64_eq_ok, fun _ _ _ _ _ _ _ _ buffer h h' => ?_, fun R e e' blob => ?_,
    fun R R' e e' blob hname => ?_⟩
  · rw [EnvelopeEncryptor.decrypt_encrypt, hwell]
  · obtain ⟨blob, hblob, hdecrypt⟩ := AsyncEnvelopeEncryptor.decrypt_encrypt hlawful hwrap iv plaintext
    rw [hwell] at hdecrypt
    exact ⟨blob, hblob, hdecrypt⟩
  · rw [(decodeCanonicalBase64_eq_ok.1 h).1, (decodeCanonicalBase64_eq_ok.1 h').1]
  · refine ⟨fun ⟨_, h⟩ => EnvelopeEncryptor.field_of_decrypt h,
      fun ⟨_, h⟩ => AsyncEnvelopeEncryptor.fields_of_decrypt h, ?_⟩
    rintro ⟨⟨_, h⟩, _, h'⟩
    have hversions : ofString "v1" = ofString "v2" := Option.some.inj
      ((EnvelopeEncryptor.field_of_decrypt h).symm.trans (AsyncEnvelopeEncryptor.fields_of_decrypt h').1)
    exact absurd hversions (by decide)
  · rintro ⟨⟨_, h⟩, _, h'⟩
    have hnames : ofString e.wrapper.name.text = ofString e'.wrapper.name.text := Option.some.inj
      ((AsyncEnvelopeEncryptor.fields_of_decrypt h).2.symm.trans (AsyncEnvelopeEncryptor.fields_of_decrypt h').2)
    exact hname (WrapperName.text_inj hnames)

/-! ### One envelope -/

/-- `a ^ b` for a key stream, whose end leaves the rest as it is -/
def mask : List Byte → List Byte → List Byte
  | p :: plaintext, k :: stream => (p ^^^ k) :: mask plaintext stream
  | plaintext, _ => plaintext

theorem mask_mask (plaintext stream : List Byte) : mask (mask plaintext stream) stream = plaintext := by
  induction plaintext generalizing stream with
  | nil => cases stream <;> rfl
  | cons p plaintext ih =>
    cases stream with
    | nil => rfl
    | cons k stream =>
      have hxor : p ^^^ k ^^^ k = p := by
        apply Fin.ext
        rw [Fin.xor_val_of_uInt8Size, Fin.xor_val_of_uInt8Size, Nat.xor_assoc, Nat.xor_self, Nat.xor_zero]
      rw [mask, mask, hxor, ih]

theorem length_mask (plaintext stream : List Byte) : (mask plaintext stream).length = plaintext.length := by
  induction plaintext generalizing stream with
  | nil => cases stream <;> rfl
  | cons p plaintext ih =>
    cases stream with
    | nil => rfl
    | cons k stream => rw [mask, List.length_cons, List.length_cons, ih]

def kek : Bytes 32 := ⟨(List.range 32).map Utf8.byte, rfl⟩

def draws : Draws where
  dek := ⟨(List.range 32).map fun n => Utf8.byte (255 - n), rfl⟩
  dataIv := ⟨List.replicate 12 2, rfl⟩
  wrapIv := ⟨List.replicate 12 1, rfl⟩

/-- Key streams and tags of what is enciphered here. -/
def keyStream (key : Bytes 32) (iv : Bytes 12) : List Byte :=
  if key = kek ∧ iv = draws.wrapIv then
    [119, 195, 229, 53, 104, 133, 104, 102, 212, 84, 103, 24, 24, 103, 82, 216, 203, 110, 143, 219, 145, 131, 22, 220, 243,
      219, 7, 236, 157, 9, 254, 49]
  else if key = draws.dek ∧ iv = draws.dataIv then [186, 182]
  else []

def tagOf (plaintext : List Byte) : Bytes 16 :=
  if plaintext = draws.dek then ⟨[3, 180, 249, 91, 208, 133, 14, 88, 184, 23, 45, 6, 79, 20, 0, 146], rfl⟩
  else if plaintext = utf8 (ofString "hi") then
    ⟨[54, 162, 254, 76, 84, 32, 67, 106, 3, 191, 236, 91, 204, 211, 154, 195], rfl⟩
  else ⟨List.replicate 16 0, rfl⟩

def listedAes : Aes256Gcm where
  encipher key iv plaintext := (tagOf plaintext, mask plaintext (keyStream key iv))
  decipher key iv tag ct :=
    if tag = tagOf (mask ct (keyStream key iv)) then some (mask ct (keyStream key iv)) else none
  decipher_encipher key iv plaintext := by rw [mask_mask, if_pos rfl]
  length_encipher key iv plaintext := length_mask plaintext _

theorem envelope_roundTrip_hi :
    (EnvelopeEncryptor.mk false kek).encrypt listedAes draws (ofString "hi") =
        ofString ("v1.AQEBAQEBAQEBAQEB.A7T5W9CFDli4Fy0GTxQAkg==.iD0YyZN/kZ4jopLs65WjKCSAYjd6af80FD3iCH7rH9E=." ++
          "AgICAgICAgICAgIC.NqL+TFQgQ2oDv+xbzNOaww==.0t8=") ∧
      (EnvelopeEncryptor.mk false kek).decrypt listedAes
        ((EnvelopeEncryptor.mk false kek).encrypt listedAes draws (ofString "hi")) = .ok (ofString "hi") :=
  ⟨by decide +kernel, (envelope_roundTrip listedAes).1 _ _ _ (isWellFormed_ofString "hi")⟩

/-- The service marks what it encrypts. -/
def markingKms : AsyncEnvelopeEncryptor Unit where
  wrapper := KmsKeyWrapper
    { encrypt := fun _ input => .ok (7 :: input.Plaintext), decrypt := fun input => .ok input.CiphertextBlob.tail }
    "key" [("application", "artist-catalog-sentinel"), ("purpose", "session-envelope")]

theorem wrapped_roundTrip_hi : ∃ blob, markingKms.encrypt listedAes draws.dek draws.dataIv () (ofString "hi") = .ok blob ∧
    markingKms.decrypt listedAes blob = .ok (ofString "hi") :=
  ⟨_, rfl, (wrapped_roundTrip listedAes).2 _ _ _ _ (fun _ _ _ _ _ _ h => by cases h; rfl) draws.dek draws.dataIv () _ _
    (isWellFormed_ofString "hi") rfl⟩

end CatalogSentinel.Security
