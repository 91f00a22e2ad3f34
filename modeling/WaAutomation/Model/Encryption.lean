/-
**Encryption of values to be stored.**

The functions `encrypt` and `decrypt`. The cipher itself is the crypto library's: `Crypto` collects
what is used of it, and `Crypto.Lawful` what is documented of it. Bytes are lists of `UInt8`.
-/

import WaAutomation.Library.Hex
import WaAutomation.Model.Accounts

set_option linter.unusedSectionVars false

namespace WaAutomation

open Library

/-- What a cipher makes of a text. -/
structure Sealed where
  data : List UInt8
  authTag : List UInt8

/-- What is used of the crypto library and of `Buffer`: `digest` is SHA-256, `encipher` and
`decipher` are AES-256-GCM (from a key, an initialisation vector and, to read, a tag), and
`replaced` is the text of bytes that are not UTF-8. -/
structure Crypto where
  digest : String → List UInt8
  encipher : (key iv plain : List UInt8) → Sealed
  decipher : (key iv authTag data : List UInt8) → Except Err (List UInt8)
  replaced : List UInt8 → String

/-- What is documented of them: a digest has 32 bytes. Under a key of 32 bytes and a vector of 12,
decryption with the same key, vector and tag inverts encryption, the cipher text is as long as the
text, and the tag has 16 bytes. -/
structure Crypto.Lawful (c : Crypto) : Prop where
  digest : ∀ secret, (c.digest secret).length = 32
  inverts : ∀ key iv plain, key.length = 32 → iv.length = 12 →
    c.decipher key iv (c.encipher key iv plain).authTag (c.encipher key iv plain).data = .ok plain
  length : ∀ key iv plain, key.length = 32 → iv.length = 12 →
    (c.encipher key iv plain).data.length = plain.length
  authTag : ∀ key iv plain, key.length = 32 → iv.length = 12 →
    (c.encipher key iv plain).authTag.length = 16

namespace Encryption

/-- The bytes of a text in UTF-8. -/
def utf8 (text : String) : List UInt8 := text.toByteArray.data.toList

/-- The text of `toString('utf8')`. -/
def text (c : Crypto) (bytes : List UInt8) : String :=
  (String.fromUTF8? ⟨bytes.toArray⟩).getD (c.replaced bytes)

def getKey (c : Crypto) (secret : String) : List UInt8 := c.digest secret

def encrypt (c : Crypto) (plain secret : String) (iv : List UInt8) : String :=
  let encrypted := c.encipher (getKey c secret) iv (utf8 plain)
  String.ofList (Hex.encode iv ++ ':' :: Hex.encode encrypted.authTag ++
    ':' :: Hex.encode encrypted.data)

def decrypt (c : Crypto) (payload secret : String) : Except Err String :=
  match payload.toList.splitOn ':' with
  | ivHex :: tagHex :: dataHex :: _ =>
      if ivHex = [] ∨ tagHex = [] ∨ dataHex = [] then
        .error (.other "Invalid encrypted payload format")
      else
        (c.decipher (getKey c secret) (Hex.decode ivHex) (Hex.decode tagHex)
          (Hex.decode dataHex)).map (text c)
  | _ => .error (.other "Invalid encrypted payload format")

end Encryption

/-- The helpers of the workspaces with a secret: they read and write encrypted keys. -/
def Helpers.withSecret (h : Helpers) (c : Crypto) (secret : String) : Helpers :=
  { h with decrypt := fun payload => Encryption.decrypt c payload secret }

/-- The vector an encryption draws comes as its hexadecimal digits. -/
def AccountHelpers.withSecret (k : AccountHelpers) (c : Crypto) (secret : String) :
    AccountHelpers :=
  { k with encrypt :=
    fun plain ivHex => Encryption.encrypt c plain secret (Hex.decode ivHex.toList) }

end WaAutomation
