import Mathlib

/-!
# Addresses and their StrKey text

A Soroban `Address` is an account or a contract, each named by 32 bytes.  Off
chain it is written as StrKey text (SEP-23): a version byte, the payload and a
CRC-16/XMODEM checksum, in RFC 4648 base32 without padding.
-/

namespace Stellar8004

inductive AddressKind where
  | account
  | contract
  deriving DecidableEq, Repr

structure Address where
  kind : AddressKind
  payload : Vector UInt8 32
  deriving DecidableEq

namespace StrKey

def alphabet : List Char := "ABCDEFGHIJKLMNOPQRSTUVWXYZ234567".toList

/-- The character of a five-bit group. -/
def symbol (group : Nat) : Char := alphabet.getD group 'A'

/-- RFC 4648 section 6, five bytes to eight characters, without padding. -/
def base32Encode : List UInt8 → List Char
  | b₀ :: b₁ :: b₂ :: b₃ :: b₄ :: rest =>
      symbol (b₀.toNat / 8) ::
      symbol (b₀.toNat % 8 * 4 + b₁.toNat / 64) ::
      symbol (b₁.toNat / 2 % 32) ::
      symbol (b₁.toNat % 2 * 16 + b₂.toNat / 16) ::
      symbol (b₂.toNat % 16 * 2 + b₃.toNat / 128) ::
      symbol (b₃.toNat / 4 % 32) ::
      symbol (b₃.toNat % 4 * 8 + b₄.toNat / 32) ::
      symbol (b₄.toNat % 32) :: base32Encode rest
  | [b₀, b₁, b₂, b₃] =>
      [symbol (b₀.toNat / 8), symbol (b₀.toNat % 8 * 4 + b₁.toNat / 64),
        symbol (b₁.toNat / 2 % 32), symbol (b₁.toNat % 2 * 16 + b₂.toNat / 16),
        symbol (b₂.toNat % 16 * 2 + b₃.toNat / 128),
        symbol (b₃.toNat / 4 % 32), symbol (b₃.toNat % 4 * 8)]
  | [b₀, b₁, b₂] =>
      [symbol (b₀.toNat / 8), symbol (b₀.toNat % 8 * 4 + b₁.toNat / 64),
        symbol (b₁.toNat / 2 % 32), symbol (b₁.toNat % 2 * 16 + b₂.toNat / 16),
        symbol (b₂.toNat % 16 * 2)]
  | [b₀, b₁] =>
      [symbol (b₀.toNat / 8), symbol (b₀.toNat % 8 * 4 + b₁.toNat / 64),
        symbol (b₁.toNat / 2 % 32), symbol (b₁.toNat % 2 * 16)]
  | [b₀] => [symbol (b₀.toNat / 8), symbol (b₀.toNat % 8 * 4)]
  | [] => []

/-- One bit of CRC-16/XMODEM: shift the register left and, when a one falls
out, add the polynomial 0x1021. -/
def crcBit (register : Nat) : Nat :=
  if register &&& 0x8000 ≠ 0 then
    ((register <<< 1) ^^^ 0x1021) &&& 0xffff
  else
    (register <<< 1) &&& 0xffff

/-- One byte of CRC-16/XMODEM. -/
def crcByte (register : Nat) (byte : UInt8) : Nat :=
  crcBit (crcBit (crcBit (crcBit (crcBit (crcBit (crcBit (crcBit
    (register ^^^ (byte.toNat <<< 8)))))))))

/-- CRC-16/XMODEM, initial value zero. -/
def crc16 (bytes : List UInt8) : Nat := bytes.foldl crcByte 0

def versionByte : AddressKind → UInt8
  | .account => 48
  | .contract => 16

/-- Version and payload, the bytes the checksum covers. -/
def body (address : Address) : List UInt8 :=
  versionByte address.kind :: address.payload.toList

/-- Version, payload and the checksum in little-endian order. -/
def bytes (address : Address) : List UInt8 :=
  body address ++
    [UInt8.ofNat (crc16 (body address) &&& 0xff),
      UInt8.ofNat ((crc16 (body address) >>> 8) &&& 0xff)]

/-- The StrKey text of an address: 56 characters, `G…` or `C…`. -/
def encode (address : Address) : String :=
  String.ofList (base32Encode (bytes address))

@[simp] theorem length_body (address : Address) :
    (body address).length = 33 := by
  simp [body]

@[simp] theorem length_bytes (address : Address) :
    (bytes address).length = 35 := by
  simp [bytes]

theorem length_base32Encode (groups : Nat) (input : List UInt8)
    (aligned : input.length = 5 * groups) :
    (base32Encode input).length = 8 * groups := by
  induction groups generalizing input with
  | zero =>
      have empty : input = [] := List.length_eq_zero_iff.mp aligned
      simp [empty, base32Encode]
  | succ groups induction =>
      match input, aligned with
      | b₀ :: b₁ :: b₂ :: b₃ :: b₄ :: rest, aligned =>
          have shorter : rest.length = 5 * groups := by
            simp only [List.length_cons] at aligned
            omega
          simp only [base32Encode, List.length_cons, induction rest shorter]
          omega

theorem length_encode (address : Address) :
    (encode address).toList.length = 56 := by
  rw [encode, String.toList_ofList,
    length_base32Encode 7 _ (length_bytes address)]

end StrKey

end Stellar8004
