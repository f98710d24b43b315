import Elements.Primitives.Transaction
import Elements.Crypto.Hash

/-! `script/script.h` and `script/standard.cpp`: the opcodes the consensus
code builds scripts from, the push encoding of `CScript::operator<<`, witness
programs, and the script templates of the two destinations a peg-in program
takes. -/

namespace Elements

open Wire

def OP_0 : UInt8 := 0x00
def OP_PUSHDATA1 : UInt8 := 0x4c
def OP_PUSHDATA2 : UInt8 := 0x4d
def OP_PUSHDATA4 : UInt8 := 0x4e
def OP_1 : UInt8 := 0x51
def OP_16 : UInt8 := 0x60
def OP_DEPTH : UInt8 := 0x74
def OP_DUP : UInt8 := 0x76
def OP_EQUAL : UInt8 := 0x87
def OP_EQUALVERIFY : UInt8 := 0x88
def OP_HASH160 : UInt8 := 0xa9
def OP_CHECKSIG : UInt8 := 0xac

/-- `CScript() << b` for a byte vector: the shortest push opcode for its
length, then the bytes. -/
def pushData (b : Bytes) : CScript :=
  (if b.length < OP_PUSHDATA1.toNat then [UInt8.ofNat b.length]
    else if b.length ≤ 0xff then [OP_PUSHDATA1, UInt8.ofNat b.length]
    else if b.length ≤ 0xffff then OP_PUSHDATA2 :: writeLE 2 b.length
    else OP_PUSHDATA4 :: writeLE 4 b.length) ++ b

/-- The small integer an `OP_0` or `OP_1`..`OP_16` opcode pushes. -/
def DecodeOP_N (opcode : UInt8) : Nat :=
  if opcode = OP_0 then 0 else opcode.toNat - (OP_1.toNat - 1)

def IsWitnessProgram (script : CScript) : Option (Nat × Bytes) :=
  if script.length < 4 ∨ script.length > 42 then none
  else
    let version := script.getD 0 0
    if version ≠ OP_0 ∧ (version < OP_1 ∨ version > OP_16) then none
    else if (script.getD 1 0).toNat + 2 = script.length then
      some (DecodeOP_N version, script.drop 2)
    else none

variable (H : Hashes)

/-- `GetScriptForDestination(WitnessV0ScriptHash(script))`: `OP_0` and the
SHA-256 of the script. -/
def witnessV0ScriptHashScript (script : CScript) : CScript :=
  OP_0 :: pushData (H.sha256 script).data

/-- `GetScriptForDestination(ScriptHash(script))`: `OP_HASH160`, the Hash160
of the script, `OP_EQUAL`. -/
def scriptHashScript (script : CScript) : CScript :=
  OP_HASH160 :: pushData (H.Hash160 script) ++ [OP_EQUAL]

theorem scriptHashScript_ne_witnessV0ScriptHashScript (script other : CScript) :
    scriptHashScript H script ≠ witnessV0ScriptHashScript H other := by
  intro same
  have opcode := congrArg List.head? same
  simp only [scriptHashScript, witnessV0ScriptHashScript, List.cons_append, List.head?_cons,
    Option.some.injEq] at opcode
  exact absurd opcode (by decide)

end Elements
