import Retest.ClassFile.Descriptor
import Retest.JvmClass
import Retest.Text.Utf8

namespace Retest.ClassFile

inductive DecodeError where
  | badMagic (found : Nat)
  | truncated (offset : Nat)
  | unknownTag (tag : Nat) (index : Nat)
  | badIndex (index : Nat)
  deriving Repr, DecidableEq

def hexDigit (n : Nat) : Char := if n < 10 then Char.ofNat (48 + n) else Char.ofNat (87 + n)

def hexDigits : Nat → Nat → List Char
  | 0, _ => []
  | width + 1, n => hexDigits width (n / 16) ++ [hexDigit (n % 16)]

def DecodeError.message : DecodeError → String
  | .badMagic found => "not a class file (bad magic 0x" ++ String.ofList (hexDigits 8 found) ++ ")"
  | .truncated offset => "class file truncated at offset " ++ toString offset
  | .unknownTag tag index =>
    "unknown constant pool tag " ++ toString tag ++ " at entry " ++ toString index
  | .badIndex index => "constant pool index " ++ toString index ++ " is not a valid entry"

structure Cursor where
  rest : List UInt8
  offset : Nat
  deriving Repr, DecidableEq

abbrev Read (α : Type) := Cursor → Except DecodeError (α × Cursor)

/-- The next `n` bytes at once; the read fails where it began. -/
def take (n : Nat) : Read (List UInt8) := fun c =>
  let bytes := c.rest.take n
  if bytes.length = n then .ok (bytes, ⟨c.rest.drop n, c.offset + n⟩)
  else .error (.truncated c.offset)

def bigEndian (bytes : List UInt8) : Nat := bytes.foldl (fun n b => n * 256 + b.toNat) 0

def number (width : Nat) : Read Nat := fun c => (take width c).map fun r => (bigEndian r.1, r.2)

inductive Slot where
  | text (s : List Char)
  | classRef (name : Nat)
  | nameAndType (descriptor : Nat)
  | methodType (descriptor : Nat)
  | other
  deriving Repr, DecidableEq

inductive Entry where
  | narrow (slot : Slot)
  | wide
  deriving Repr, DecidableEq

/-- A payload of `n` bytes that says nothing here. -/
def skip (n : Nat) : Read Entry := fun c => (take n c).map fun r => (.narrow .other, r.2)

def readPayload (tag index : Nat) : Read Entry := fun c =>
  match tag with
  | 1 => do
    let (length, c) ← number 2 c
    let (bytes, c) ← take length c
    return (.narrow (.text (Utf8.decodeLossy bytes)), c)
  | 3 | 4 => skip 4 c
  | 5 | 6 => do
    let (_, c) ← take 8 c
    return (.wide, c)
  | 7 => do
    let (name, c) ← number 2 c
    return (.narrow (.classRef name), c)
  | 8 | 19 | 20 => skip 2 c
  | 9 | 10 | 11 | 17 | 18 => skip 4 c
  | 12 => do
    let (_, c) ← number 2 c
    let (descriptor, c) ← number 2 c
    return (.narrow (.nameAndType descriptor), c)
  | 15 => skip 3 c
  | 16 => do
    let (descriptor, c) ← number 2 c
    return (.narrow (.methodType descriptor), c)
  | _ => .error (.unknownTag tag index)

/-- Fills the slots from `index` on until none is missing. A wide entry in the last place fills
only that one. -/
def readSlots : Nat → Nat → Read (List Slot)
  | 0, _, c => .ok ([], c)
  | missing + 1, index, c => do
    let (tag, c) ← number 1 c
    let (entry, c) ← readPayload tag index c
    match entry with
    | .narrow slot => do
      let (slots, c) ← readSlots missing (index + 1) c
      return (slot :: slots, c)
    | .wide =>
      match missing with
      | 0 => return ([.other], c)
      | fewer + 1 => do
        let (slots, c) ← readSlots fewer (index + 2) c
        return (.other :: .other :: slots, c)

/-- The constant pool behind its count. Slot 0 holds nothing, and a count of 0 means no more than
that slot. -/
def readPool : Read (List Slot) := fun c => do
  let (count, c) ← number 2 c
  let (slots, c) ← readSlots (count - 1) 1 c
  return (.other :: slots, c)

def textAt (pool : List Slot) (index : Nat) : Except DecodeError (List Char) :=
  match pool[index]? with
  | some (.text s) => .ok s
  | _ => .error (.badIndex index)

def classAt (pool : List Slot) (index : Nat) : Except DecodeError String :=
  match pool[index]? with
  | some (.classRef name) => (textAt pool name).map binaryName
  | _ => .error (.badIndex index)

/-- The classes that one slot refers to. Array classes name their element class; an index that
leads nowhere names nothing. -/
def slotClasses (pool : List Slot) : Slot → List String
  | .classRef name =>
    match textAt pool name with
    | .ok ('[' :: s) => descriptorClasses ('[' :: s)
    | .ok s => [binaryName s]
    | .error _ => []
  | .nameAndType descriptor | .methodType descriptor =>
    match textAt pool descriptor with
    | .ok s => descriptorClasses s
    | .error _ => []
  | _ => []

def referencedClasses (pool : List Slot) : List String := pool.flatMap (slotClasses pool)

def testAnnotations : List String :=
  ["Lorg/junit/Test;", "Lorg/junit/jupiter/api/Test;",
    "Lorg/junit/jupiter/params/ParameterizedTest;", "Lorg/junit/jupiter/api/TestFactory;",
    "Lorg/testng/annotations/Test;"]

def testSuperclasses : List String := ["junit.framework.TestCase"]

def mentionsAny (pool : List Slot) (names : List String) : Bool :=
  pool.any fun
    | .text s => names.contains (String.ofList s)
    | _ => false

/-- Neither interface nor abstract nor annotation nor module. -/
def isConcrete (flags : Nat) : Bool := flags &&& 0xA600 = 0

def magic : Nat := 0xCAFEBABE

structure Header where
  pool : List Slot
  flags : Nat
  name : String
  superclass : Option String
  deriving Repr, DecidableEq

/-- Magic, two version numbers, constant pool, access flags, the class itself and its superclass,
which index 0 leaves out. What follows is not read. -/
def readHeader : Read Header := fun c => do
  let (found, c) ← number 4 c
  if found ≠ magic then .error (.badMagic found)
  else
    let (_, c) ← number 2 c
    let (_, c) ← number 2 c
    let (pool, c) ← readPool c
    let (flags, c) ← number 2 c
    let (this, c) ← number 2 c
    let name ← classAt pool this
    let (super, c) ← number 2 c
    if super = 0 then return (⟨pool, flags, name, none⟩, c)
    else
      let superclass ← classAt pool super
      return (⟨pool, flags, name, some superclass⟩, c)

/-- A concrete class is a test if its pool mentions a test annotation or its superclass is a test
class. -/
def Header.isTest (h : Header) : Bool :=
  isConcrete h.flags &&
    (mentionsAny h.pool testAnnotations || h.superclass.any testSuperclasses.contains)

def Header.toClass (h : Header) (file : Option Path) : JvmClass :=
  .ofImports h.name (referencedClasses h.pool) h.isTest file

def decode (bytes : List UInt8) (file : Option Path) : Except DecodeError JvmClass :=
  (readHeader ⟨bytes, 0⟩).map fun r => r.1.toClass file

end Retest.ClassFile
