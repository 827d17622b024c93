import Woeful.Lib.Objects
import Woeful.SystemInterface

/-!
# Configurations as objects

`WoefulConfig::Member` is a tagged union with a string in it, so its constructors, its
`operator=` and its destructor are written by hand in `server.h`, and every copy of a
configuration goes through them. Here a member is its tag and what is alive in the union, and
an operation that reads, destroys or overwrites something else than what is alive has no
result.

`Member.raw` is the object that stands for a member. On these objects the operations are those
of values (`RawMember.regular`), and so they are on whole configurations
(`RawConfig.regular`).
-/

namespace Woeful

open Memory Objects

/-! ## The union -/

/-- `MemberType` -/
inductive MemberType where
  /-- `MEMBER_HOSTNAME` -/
  | hostname
  /-- `MEMBER_PORT` -/
  | port
  deriving DecidableEq, Repr

/-- `MemberUnion`, and what is alive in it. -/
inductive MemberUnion where
  /-- nothing, as after `MemberUnion()` -/
  | empty
  /-- the string -/
  | hostname (str : Bytes)
  /-- the number -/
  | port (number : UInt32)
  deriving DecidableEq, Repr

namespace MemberUnion

/-- Read `data.hostname`. -/
def readHostname : MemberUnion → Option Bytes
  | hostname str => some str
  | _ => none

/-- Read `data.port`. -/
def readPort : MemberUnion → Option UInt32
  | port number => some number
  | _ => none

/-- `new (&data.hostname) std::string(str)`; a string that is there already is lost. -/
def newHostname (str : Bytes) : MemberUnion → Option MemberUnion
  | hostname _ => none
  | _ => some (hostname str)

/-- `data.port = number`; likewise. -/
def setPort (number : UInt32) : MemberUnion → Option MemberUnion
  | hostname _ => none
  | _ => some (port number)

/-- `data.hostname.~basic_string()` -/
def destroyHostname : MemberUnion → Option MemberUnion
  | hostname _ => some empty
  | _ => none

end MemberUnion

/-! ## Members -/

/-- `Member`, as it is in memory. -/
structure RawMember where
  /-- `type` -/
  type : MemberType
  /-- `data` -/
  data : MemberUnion
  deriving DecidableEq, Repr

namespace RawMember

/-- `Member(std::string str)` -/
def ofHostname (str : Bytes) : Option RawMember := do
  let data ← MemberUnion.empty.newHostname str
  return { type := .hostname, data }

/-- `Member(unsigned int port)` -/
def ofPort (port : UInt32) : Option RawMember := do
  let data ← MemberUnion.empty.setPort port
  return { type := .port, data }

/-- `Member(const Member &b)` -/
def copy (b : RawMember) : Option RawMember :=
  match b.type with
  | .hostname => do
    let str ← b.data.readHostname
    let data ← MemberUnion.empty.newHostname str
    return { type := b.type, data }
  | .port => do
    let port ← b.data.readPort
    let data ← MemberUnion.empty.setPort port
    return { type := b.type, data }

/-- The destructor, which is also how `operator=` begins: what is left in the union. -/
def clear (a : RawMember) : Option MemberUnion :=
  match a.type with
  | .hostname => a.data.destroyHostname
  | .port => some a.data

/-- `operator=` of two members; of a member and itself it does nothing. -/
def assign (a b : RawMember) : Option RawMember := do
  let data ← a.clear
  match b.type with
  | .hostname =>
    let str ← b.data.readHostname
    let data ← data.newHostname str
    return { type := b.type, data }
  | .port =>
    let port ← b.data.readPort
    let data ← data.setPort port
    return { type := b.type, data }

/-- `~Member()` -/
def destroy (a : RawMember) : Option Unit := do
  let _ ← a.clear
  return ()

/-- The class. -/
def lifecycle : Lifecycle RawMember := { copy, assign, destroy }

end RawMember

namespace Member

/-- The object that stands for a member. -/
def raw : Member → RawMember
  | .hostname str => { type := .hostname, data := .hostname str }
  | .port number => { type := .port, data := .port number }

/-- The constructor a member is made with. -/
def construct : Member → Option RawMember
  | .hostname str => RawMember.ofHostname str
  | .port number => RawMember.ofPort number

theorem construct_eq (m : Member) : m.construct = some m.raw := by
  cases m <;> rfl

end Member

/-- Members are values, whichever of the two they are before an assignment. -/
theorem RawMember.regular : Regular RawMember.lifecycle Member.raw where
  copy m := by cases m <;> rfl
  assign m m' := by cases m <;> cases m' <;> rfl
  destroy m := by cases m <;> rfl

/-! ## Configurations -/

/-- `WoefulConfig`, as it is in memory. -/
structure RawConfig where
  /-- `block_type` -/
  blockType : BlockType
  /-- `block_members` -/
  blockMembers : List RawMember
  /-- `pcap_capture` -/
  pcapCapture : Bool
  /-- `port_number` -/
  portNumber : Option UInt32
  deriving DecidableEq, Repr

namespace RawConfig

/-- The operations the compiler makes, field by field. -/
def lifecycle (reallocates : Bool) : Lifecycle RawConfig where
  copy b := do
    let blockMembers ← (RawMember.lifecycle.vector reallocates).copy b.blockMembers
    return { b with blockMembers }
  assign a b := do
    let blockMembers ← (RawMember.lifecycle.vector reallocates).assign a.blockMembers b.blockMembers
    return { b with blockMembers }
  destroy a := (RawMember.lifecycle.vector reallocates).destroy a.blockMembers

end RawConfig

/-- The object that stands for a configuration. -/
def WoefulConfig.raw (conf : WoefulConfig) : RawConfig where
  blockType := conf.blockType
  blockMembers := conf.blockMembers.map Member.raw
  pcapCapture := conf.pcapCapture
  portNumber := conf.portNumber

/-- Configurations are values. -/
theorem RawConfig.regular (reallocates : Bool) :
    Regular (RawConfig.lifecycle reallocates) WoefulConfig.raw := by
  have hmembers := RawMember.regular.vector reallocates
  constructor
  · intro conf
    simp [lifecycle, WoefulConfig.raw, hmembers.copy]
  · intro conf conf'
    simp [lifecycle, WoefulConfig.raw, hmembers.assign]
  · intro conf
    exact hmembers.destroy conf.blockMembers

/-! ## From `read_config` to `get_conf` -/

/-- What `read_config` does to `block_members` at a list element: it makes the member, appends a
copy and destroys it. -/
def pushMember (reallocates : Bool) (ms : List RawMember) (m : Member) :
    Option (List RawMember) := do
  let temporary ← m.construct
  let ms' ← RawMember.lifecycle.pushBack reallocates ms temporary
  RawMember.lifecycle.destroy temporary
  return ms'

/-- The vector that `read_config` has filled; `reallocates` says which of the `push_back`s need
new storage. -/
def pushMembers (reallocates : Nat → Bool) : List RawMember → List Member → Option (List RawMember)
  | ms, [] => some ms
  | ms, m :: rest => do
    let ms' ← pushMember (reallocates ms.length) ms m
    pushMembers reallocates ms' rest

/-- `set_conf`. Its parameter is a copy of the argument. -/
def setConf (reallocates : Bool) (global arg : RawConfig) : Option RawConfig := do
  let conf ← (RawConfig.lifecycle reallocates).copy arg
  let global' ← (RawConfig.lifecycle reallocates).assign global conf
  (RawConfig.lifecycle reallocates).destroy conf
  return global'

theorem pushMember_raw {reallocates : Bool} {ms : List Member} {m : Member} :
    pushMember reallocates (ms.map Member.raw) m = some ((ms ++ [m]).map Member.raw) := by
  simp [pushMember, m.construct_eq, RawMember.regular.pushBack, RawMember.regular.destroy]

theorem pushMembers_raw {reallocates : Nat → Bool} {ms rest : List Member} :
    pushMembers reallocates (ms.map Member.raw) rest = some ((ms ++ rest).map Member.raw) := by
  induction rest generalizing ms with
  | nil => simp [pushMembers]
  | cons m rest ih =>
    have hrest := @ih (ms ++ [m])
    rw [List.append_assoc, List.singleton_append] at hrest
    rw [pushMembers, pushMember_raw]
    exact hrest

/-- What `set_conf` installs is what it is given, whatever was there. -/
theorem setConf_raw {reallocates : Bool} {global conf : WoefulConfig} :
    setConf reallocates global.raw conf.raw = some conf.raw := by
  have hconf := RawConfig.regular reallocates
  simp [setConf, hconf.copy, hconf.assign, hconf.destroy]

end Woeful
