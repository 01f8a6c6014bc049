import ReproitCloud.Http.Request
import ReproitCloud.Lib.Hex

/-!
# Secrets at rest

A secret is stored encrypted under the key of `REPROIT_CONN_ENC_KEY`, with a prefix that
says so, and as it is without a key.  What is read back is decrypted when it has the
prefix, and taken as it is otherwise.

The cipher and the hexadecimal texts are those of other crates.  They are fields of
`SecretEnv`, and `SecretEnv.Lawful` says what is relied on.

`secret_round_trip_iff`: a stored secret is read back, unless it was stored without a key
and has the prefix itself.
-/

namespace ReproitCloud

open Lib

namespace Secrets

/-- What `secrets` takes from outside the modelled code. -/
structure SecretEnv where
  /-- `REPROIT_CONN_ENC_KEY`. -/
  var : Option String
  /-- `ChaCha20Poly1305::encrypt`, of a key, a nonce and a plaintext. -/
  aeadEncrypt : List UInt8 → List UInt8 → List UInt8 → Option (List UInt8)
  /-- `ChaCha20Poly1305::decrypt`, of a key, a nonce and a ciphertext. -/
  aeadDecrypt : List UInt8 → List UInt8 → List UInt8 → Option (List UInt8)
  /-- `hex::encode`. -/
  hexEncode : List UInt8 → List Char
  /-- `hex::decode`. -/
  hexDecode : List Char → Option (List UInt8)
  /-- The `Display` of a `FromUtf8Error`. -/
  utf8Error : List UInt8 → String

/-- The cipher decrypts what it encrypted, and the texts of bytes are read back. -/
structure SecretEnv.Lawful (E : SecretEnv) : Prop where
  decrypt_encrypt : ∀ key nonce plain cipher, E.aeadEncrypt key nonce plain = some cipher →
    E.aeadDecrypt key nonce cipher = some plain
  decode_encode : ∀ bytes, E.hexDecode (E.hexEncode bytes) = some bytes

/-- `CONN_ENC_PREFIX`. -/
def connEncPrefix : List Char := "enc:v1:".toList

/-- A key of the cipher. -/
structure ConnEncKey where
  bytes : List UInt8
  length_eq : bytes.length = 32

/-- The nonce of one encryption. -/
structure SecretNonce where
  bytes : List UInt8
  length_eq : bytes.length = 12

/-- `conn_enc_key`: a variable that is no key of 32 bytes is no key. -/
def connEncKey (E : SecretEnv) : Option ConnEncKey :=
  match E.var.filter (· ≠ "") with
  | none => none
  | some hexKey =>
    match E.hexDecode (trim hexKey.toList) with
    | some bytes => if h : bytes.length = 32 then some ⟨bytes, h⟩ else none
    | none => none

/-- The bytes of a text. -/
def utf8Bytes (s : String) : List UInt8 := s.toUTF8.data.toList

/-- `String::from_utf8`. -/
def fromUtf8? (bytes : List UInt8) : Option String := String.fromUTF8? ⟨bytes.toArray⟩

theorem fromUtf8?_utf8Bytes (s : String) : fromUtf8? (utf8Bytes s) = some s := by
  rw [fromUtf8?, utf8Bytes, Array.toArray_toList]
  exact dif_pos s.isValidUTF8

/-- `encrypt`, with the nonce that was drawn. -/
def encrypt (E : SecretEnv) (nonce : SecretNonce) (plaintext : String) : Except String String :=
  match connEncKey E with
  | none => .ok plaintext
  | some key =>
    match E.aeadEncrypt key.bytes nonce.bytes (utf8Bytes plaintext) with
    | none => .error "secret encryption failed"
    | some ct => .ok (String.ofList (connEncPrefix ++ E.hexEncode (nonce.bytes ++ ct)))

/-- `decrypt`. -/
def decrypt (E : SecretEnv) (stored : String) : Except String String :=
  match connEncPrefix.isPrefixOf? stored.toList with
  | none => .ok stored
  | some rest =>
    match connEncKey E with
    | none => .error "encrypted secret present but REPROIT_CONN_ENC_KEY unset"
    | some key =>
      match E.hexDecode rest with
      | none => .error "secret ciphertext not valid hex"
      | some blob =>
        if blob.length < 12 then .error "secret ciphertext too short"
        else
          match E.aeadDecrypt key.bytes (blob.take 12) (blob.drop 12) with
          | none => .error "secret decryption failed (wrong key or corrupt data)"
          | some pt =>
            match fromUtf8? pt with
            | none => .error (E.utf8Error pt)
            | some plaintext => .ok plaintext

section RoundTrip

variable {E : SecretEnv} {nonce : SecretNonce} {p stored : String}

theorem isPrefixOf?_eq_none_iff {xs ys : List Char} :
    xs.isPrefixOf? ys = none ↔ ¬ xs <+: ys := by
  induction xs generalizing ys with
  | nil => simp [List.isPrefixOf?]
  | cons x xs ih =>
    cases ys with
    | nil => simp [List.isPrefixOf?]
    | cons y ys =>
      rw [List.isPrefixOf?, List.cons_prefix_cons]
      by_cases hxy : x = y
      · simp [hxy, ih]
      · simp [hxy]

theorem isPrefixOf?_append (xs ys : List Char) : xs.isPrefixOf? (xs ++ ys) = some ys := by
  induction xs with
  | nil => rfl
  | cons x xs ih => rw [List.cons_append, List.isPrefixOf?, beq_self_eq_true, if_pos rfl, ih]

/-- With a key, what is stored is what is read back. -/
theorem decrypt_encrypt (hE : E.Lawful) {key : ConnEncKey} (hkey : connEncKey E = some key)
    (h : encrypt E nonce p = .ok stored) : decrypt E stored = .ok p := by
  cases hct : E.aeadEncrypt key.bytes nonce.bytes (utf8Bytes p) with
  | none =>
    simp only [encrypt, hkey, hct] at h
    cases h
  | some ct =>
    simp only [encrypt, hkey, hct] at h
    cases h
    have hlong : ¬ (nonce.bytes ++ ct).length < 12 := by
      rw [List.length_append, nonce.length_eq]
      omega
    have htake : (nonce.bytes ++ ct).take 12 = nonce.bytes := by
      rw [← nonce.length_eq, List.take_left]
    have hdrop : (nonce.bytes ++ ct).drop 12 = ct := by
      rw [← nonce.length_eq, List.drop_left]
    simp only [decrypt, String.toList_ofList, isPrefixOf?_append, hkey, hE.decode_encode,
      if_neg hlong, htake, hdrop, hE.decrypt_encrypt _ _ _ _ hct, fromUtf8?_utf8Bytes]

/-- A stored secret is read back, unless there is no key and it has the prefix. -/
theorem secret_round_trip_iff (hE : E.Lawful) (h : encrypt E nonce p = .ok stored) :
    decrypt E stored = .ok p ↔ (connEncKey E).isSome = true ∨ ¬ connEncPrefix <+: p.toList := by
  cases hkey : connEncKey E with
  | some key => exact iff_of_true (decrypt_encrypt hE hkey h) (.inl rfl)
  | none =>
    rw [encrypt, hkey] at h
    cases h
    simp only [decrypt, hkey, Option.isSome_none, Bool.false_eq_true, false_or]
    cases hprefix : connEncPrefix.isPrefixOf? p.toList with
    | none => exact iff_of_true rfl (isPrefixOf?_eq_none_iff.1 hprefix)
    | some rest =>
      refine iff_of_false (fun heq => by cases heq) fun hnot => ?_
      rw [isPrefixOf?_eq_none_iff.2 hnot] at hprefix
      cases hprefix

/-- A server without a key. -/
def keyless : SecretEnv where
  var := none
  aeadEncrypt _ _ plain := some plain
  aeadDecrypt _ _ cipher := some cipher
  hexEncode := hexText
  hexDecode := hexBytes?
  utf8Error _ := ""

theorem keyless_lawful : keyless.Lawful where
  decrypt_encrypt _ _ _ _ h := h.symm
  decode_encode := hexBytes?_hexText

def zeroNonce : SecretNonce := ⟨List.replicate 12 0, rfl⟩

theorem secret_round_trip_iff_token :
    keyless.Lawful ∧ encrypt keyless zeroNonce "ghp_token" = .ok "ghp_token" ∧
      decrypt keyless "ghp_token" = .ok "ghp_token" := by
  have hstored : encrypt keyless zeroNonce "ghp_token" = .ok "ghp_token" := rfl
  refine ⟨keyless_lawful, hstored, (secret_round_trip_iff keyless_lawful hstored).2 (.inr ?_)⟩
  decide

/-- Without a key, a secret with the prefix is stored and cannot be read. -/
theorem prefixed_secret_is_lost :
    encrypt keyless zeroNonce "enc:v1:token" = .ok "enc:v1:token" ∧
      decrypt keyless "enc:v1:token" =
        .error "encrypted secret present but REPROIT_CONN_ENC_KEY unset" ∧
      ¬ ∀ (E : SecretEnv) (nonce : SecretNonce) (p stored : String), E.Lawful →
        encrypt E nonce p = .ok stored → decrypt E stored = .ok p := by
  have hstored : encrypt keyless zeroNonce "enc:v1:token" = .ok "enc:v1:token" := rfl
  have hread : decrypt keyless "enc:v1:token" =
      .error "encrypted secret present but REPROIT_CONN_ENC_KEY unset" := by decide
  refine ⟨hstored, hread, fun hall => ?_⟩
  have hback := hall _ _ _ _ keyless_lawful hstored
  rw [hread] at hback
  cases hback

end RoundTrip

end Secrets

end ReproitCloud
