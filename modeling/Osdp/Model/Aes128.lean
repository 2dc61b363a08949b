import Osdp.Model.Secure
import Osdp.Library.BlockMode
import Mathlib.Data.Vector.Zip

/-!
# The standard cipher suite

`internal/secure`, `AES128`: key derivation and cryptograms as single blocks, payloads in a
chaining mode behind padding, and the two-key message authentication code. The block cipher of
`crypto/aes` is a parameter: a permutation of sixteen octets for each key, with its inverse. A key
here always has sixteen octets, so `NewCipher` never fails.
-/

set_option autoImplicit false

namespace Osdp.Secure

/-- A block cipher. -/
structure BlockCipher where
  encrypt : Block → Block → Block
  decrypt : Block → Block → Block
  decrypt_encrypt : ∀ key b, decrypt key (encrypt key b) = b
  encrypt_decrypt : ∀ key b, encrypt key (decrypt key b) = b

/-- The end-of-message marker.
GOLINE: internal/secure/crypt.go:9 -/
def eom : UInt8 := 0x80

/-- GOLINE: internal/secure/mac.go:65-69 -/
def xorInto (dst src : Block) : Block := List.Vector.zipWith (· ^^^ ·) dst src

/-- GOLINE: internal/secure/aes128.go:104-110 -/
def chainIV (chain : Block) : Block := chain.map (~~~ ·)

/-- GOLINE: internal/secure/crypt.go:59 -/
def paddedLen (n : ℕ) : ℕ := (n + 1 + blockSize - 1) / blockSize * blockSize

/-- A payload as it is enciphered: `paddedLen` octets with the payload at the front and the marker
behind it.
GOLINE: internal/secure/crypt.go:19-21 -/
def padded (plaintext : Octets) : Octets :=
  plaintext ++ eom :: List.replicate (paddedLen plaintext.length - (plaintext.length + 1)) 0

/-- The loop of `unpad`: down over zeros, to the first octet at most.
GOLINE: internal/secure/crypt.go:68-70 -/
def lastNonzero (b : Octets) : ℕ → ℕ
  | 0 => 0
  | i + 1 => if b.getD (i + 1) 0 = 0 then lastNonzero b i else i + 1

/-- GOLINE: internal/secure/crypt.go:66-75 -/
def unpad (b : Octets) : Except Error ℕ :=
  let i := lastNonzero b (b.length - 1)
  if b.getD i 0 ≠ eom then .error .badPadding else .ok i

/-- `s[:n]`, nothing when it is out of range. -/
def sliceTo (s : Octets) (n : ℕ) : Option Octets := if n ≤ s.length then some (s.take n) else none

/-- `s[n:]`, nothing when it is out of range. -/
def sliceFrom (s : Octets) (n : ℕ) : Option Octets := if n ≤ s.length then some (s.drop n) else none

/-- An array of sixteen octets with these copied to its front. -/
def blockOf (s : Octets) : Block := BlockMode.block 16 0 s

namespace Aes128

/-- GOLINE: internal/secure/aes128.go:25-29 -/
def tagENC : UInt8 := 0x82
def tagMAC1 : UInt8 := 0x01
def tagMAC2 : UInt8 := 0x02

/-- GOLINE: internal/secure/aes128.go:92-97 -/
def join (a b : Rnd) : Block := blockOf (a.toList ++ b.toList)

variable (aes : BlockCipher)

/-- GOLINE: internal/secure/aes128.go:39-57 -/
def deriveSessionKeys (base : BaseKey) (rndA : Rnd) : SessionKeys :=
  let derive := fun tag => aes.encrypt base (blockOf ([0x01, tag] ++ rndA.toList.take 6))
  { enc := derive tagENC, mac1 := derive tagMAC1, mac2 := derive tagMAC2 }

/-- GOLINE: internal/secure/aes128.go:82-90 -/
def ecb (key b : Block) : Block := aes.encrypt key b

/-- GOLINE: internal/secure/aes128.go:61-63 -/
def clientCryptogram (k : SessionKeys) (rndA rndB : Rnd) : Block := ecb aes k.enc (join rndA rndB)

/-- GOLINE: internal/secure/aes128.go:68-70 -/
def serverCryptogram (k : SessionKeys) (rndA rndB : Rnd) : Block := ecb aes k.enc (join rndB rndA)

/-- GOLINE: internal/secure/aes128.go:73-79 -/
def initialRMAC (k : SessionKeys) (sc : Block) : Block := ecb aes k.mac2 (ecb aes k.mac1 sc)

/-- `CryptBlocks` of `crypto/cipher`'s CBC encrypter, on whole blocks. -/
def encipher (key iv : Block) (octets : Octets) : Octets :=
  BlockMode.join (BlockMode.encrypt xorInto (aes.encrypt key) iv (BlockMode.split 16 0 octets))

/-- `CryptBlocks` of `crypto/cipher`'s CBC decrypter, on whole blocks. -/
def decipher (key iv : Block) (octets : Octets) : Octets :=
  BlockMode.join (BlockMode.decrypt xorInto (aes.decrypt key) iv (BlockMode.split 16 0 octets))

/-- GOLINE: internal/secure/crypt.go:18-29 -/
def sealPayload (k : SessionKeys) (chain : Block) (plaintext : Octets) : Octets :=
  encipher aes k.enc (chainIV chain) (padded plaintext)

/-- GOLINE: internal/secure/crypt.go:39-56 -/
def openPayload (k : SessionKeys) (chain : Block) (ciphertext : Octets) : Except Error Octets :=
  if ciphertext.length = 0 ∨ ciphertext.length % blockSize ≠ 0 then .error .notBlockAligned
  else
    let out := decipher aes k.enc (chainIV chain) ciphertext
    match unpad out with
    | .error e => .error e
    | .ok n => .ok (out.take n)

/-- The loop of `MAC` over all blocks but the last.
GOLINE: internal/secure/mac.go:45-50 -/
def macChain (k : SessionKeys) : ℕ → Block → Octets → Option (Block × Octets)
  | 0, iv, rest => some (iv, rest)
  | n + 1, iv, rest => do
    let head ← sliceTo rest blockSize
    let next ← sliceFrom rest blockSize
    macChain k n (aes.encrypt k.mac1 (xorInto (blockOf head) iv)) next

/-- Nothing is a slice out of range.
GOLINE: internal/secure/mac.go:22-63 -/
def mac (k : SessionKeys) (chain : Block) (data : Octets) : Option Block := do
  let full := data.length / blockSize
  let rem := data.length % blockSize
  let blocks := if rem ≠ 0 then full + 1 else full
  let blocks := if blocks = 0 then 1 else blocks
  let (iv, rest) ← macChain aes k (blocks - 1) chain data
  let block ←
    if rem = 0 ∧ full > 0 then do
      let last ← sliceTo rest blockSize
      some (blockOf last)
    else do
      -- the array is zero before the copy, and `rem` is below its size
      let last ← sliceTo rest rem
      some (blockOf (last ++ [eom]))
  some (aes.encrypt k.mac2 (xorInto block iv))

end Aes128

/-- The suite itself. A slice out of range would end the program; there is none.
GOLINE: internal/secure/aes128.go:11-20 -/
def aes128 (aes : BlockCipher) : CipherSuite :=
  { deriveSessionKeys := fun base rndA => .ok (Aes128.deriveSessionKeys aes base rndA)
    clientCryptogram := fun k rndA rndB => .ok (Aes128.clientCryptogram aes k rndA rndB)
    serverCryptogram := fun k rndA rndB => .ok (Aes128.serverCryptogram aes k rndA rndB)
    initialRMAC := fun k sc => .ok (Aes128.initialRMAC aes k sc)
    sealPayload := fun k chain plaintext => .ok (Aes128.sealPayload aes k chain plaintext)
    openPayload := Aes128.openPayload aes
    mac := fun k chain data => (Aes128.mac aes k chain data).elim (.error .suiteFailed) .ok }

end Osdp.Secure
