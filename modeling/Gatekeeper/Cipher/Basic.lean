/-!
# Cipher/Basic — keeping secrets unreadable

A `Cipher` turns texts into other texts and back under a key, and may refuse either.  A `Vault` is a
cipher with its key.  `Cipher.Lawful` is all that is asked of one: what it encrypts, it decrypts to
the same text.
-/

namespace Gatekeeper

/-- How a cipher fails. -/
inductive CipherError
  /-- The key will not do. -/
  | invalidKey
  /-- The text will not be encrypted. -/
  | encryptFailed
  /-- The text is none that was encrypted. -/
  | decryptFailed
  deriving DecidableEq, Repr

/-- What is said of a cipher's failure. -/
def CipherError.message : CipherError → String
  | .invalidKey => "secret codec rejected the key"
  | .encryptFailed => "encryption failed"
  | .decryptFailed => "decryption failed"

/-- A cipher; both directions take the key first. -/
structure Cipher where
  /-- Encrypts a text. -/
  encrypt : String → String → Except CipherError String
  /-- Decrypts a text. -/
  decrypt : String → String → Except CipherError String

/-- What a lawful cipher encrypts, it decrypts to the same text. -/
def Cipher.Lawful (c : Cipher) : Prop :=
  ∀ key plain hidden, c.encrypt key plain = .ok hidden → c.decrypt key hidden = .ok plain

/-- A cipher with its key. -/
structure Vault where
  /-- The cipher. -/
  cipher : Cipher
  /-- The key. -/
  key : String

/-- Encrypts a text under the vault's key. -/
def Vault.hide (v : Vault) (plain : String) : Except CipherError String :=
  v.cipher.encrypt v.key plain

/-- Decrypts a text under the vault's key. -/
def Vault.reveal (v : Vault) (hidden : String) : Except CipherError String :=
  v.cipher.decrypt v.key hidden

end Gatekeeper
