import SmartProctoring.Server.CandidateState

/-!
# The keyring

`createKeyring` of `lib/crypto.ts`: AES-256-GCM with the key's id in the header of every ciphertext
and the context bound to it as associated data.  A ciphertext is modelled by what it opens to: the
key it names, the context it was made for and the plaintext.
-/

set_option autoImplicit false

namespace SmartProctoring

structure KeyId where
  raw : Nat
  deriving DecidableEq

/-- A ciphertext, for contexts `δ` and plaintexts `α`. -/
structure Ciphertext (δ α : Type) where
  keyId : KeyId
  aad : δ
  plaintext : α

structure Keyring where
  currentKeyId : KeyId
  old : List KeyId := []

namespace Keyring

variable {δ α : Type}

def keys (k : Keyring) : List KeyId := k.currentKeyId :: k.old

def encrypt (k : Keyring) (plaintext : α) (aad : δ) : Ciphertext δ α :=
  ⟨k.currentKeyId, aad, plaintext⟩

/-- Opens a ciphertext made with any known key, in its own context. -/
def decrypt [DecidableEq δ] (k : Keyring) (blob : Ciphertext δ α) (aad : δ) : Option α :=
  if blob.keyId ∈ k.keys ∧ blob.aad = aad then some blob.plaintext else none

@[simp] theorem decrypt_encrypt [DecidableEq δ] (k : Keyring) (plaintext : α) (aad : δ) :
    k.decrypt (k.encrypt plaintext aad) aad = some plaintext := by
  simp [decrypt, encrypt, keys]

end Keyring

end SmartProctoring
