import Mathlib.Data.List.Forall2
import Mathlib.Data.List.Induction
import Woeful.SystemInterface

/-!
# The configuration file

`read_config` goes through the elements under the root once, in order, and gives up at the
first one that is not as it should be. What the elements are to look like is `Denotes`, and
what they mean all together is `Accepts`; `read_config` accepts exactly that
(`readConfig_accepts_iff`).

The document is what tinyxml2 has made of the file: it is loaded or it is not, and an element
has a name, attributes and children. How tinyxml2 reads a number or a truth value is a
parameter.
-/

namespace Woeful

open Memory

/-! ## The document -/

/-- A C string, given by its characters. -/
def lit (s : String) : Bytes := s.toList.map fun c => UInt8.ofNat c.toNat

/-- An element under the root; `read_config` does not look at what is in it. -/
structure XMLElement where
  /-- `Name()` -/
  name : Bytes
  /-- names and values of the attributes -/
  attributes : List (Bytes × Bytes)
  deriving DecidableEq, Repr

/-- `FindAttribute(name)`, and `Value()` of what it finds. -/
def XMLElement.findAttribute (e : XMLElement) (name : Bytes) : Option Bytes :=
  (e.attributes.find? (·.1 = name)).map (·.2)

/-- An element of the document itself, with its child elements in order. -/
structure XMLRoot extends XMLElement where
  /-- the child elements -/
  children : List XMLElement
  deriving DecidableEq, Repr

/-- `XMLDocument`: its elements, in order. -/
abbrev XMLDocument : Type := List XMLRoot

/-- `FirstChildElement(name)` -/
def XMLDocument.firstChildElement (doc : XMLDocument) (name : Bytes) : Option XMLRoot :=
  doc.find? (·.name = name)

/-- The typed queries of tinyxml2: they succeed with a value or fail. -/
structure Queries where
  /-- `QueryUnsignedValue` -/
  queryUnsignedValue : Bytes → Option UInt32
  /-- `QueryBoolValue` -/
  queryBoolValue : Bytes → Option Bool

/-! ## `read_config` -/

/-- A result that is missing is an error with this text. -/
def required {A : Type} (text : String) : Option A → Except String A
  | none => .error text
  | some a => .ok a

theorem required_eq_ok {A : Type} {text : String} {o : Option A} {a : A} :
    required text o = .ok a ↔ o = some a := by
  cases o <;> simp [required]

/-- The attribute `block_type` of the root. -/
def readBlockType (root : XMLRoot) : Except String BlockType :=
  match root.findAttribute (lit "block_type") with
  | none => .ok .none
  | some value =>
    if value = lit "black" then .ok .black
    else if value = lit "white" then .ok .white
    else if value = lit "none" then .ok .none
    else .error "Attribute block_type has invalid value"

/-- The loop over the children, from one of them on. Each of the four branches goes on with
the next sibling. -/
def readChildren (tx : Queries) (ret : WoefulConfig) : List XMLElement → Except String WoefulConfig
  | [] => .ok ret
  | child :: siblings =>
    if child.name = lit "port" then do
      let value ← required "Failed to find port_number." (child.findAttribute (lit "port_number"))
      let portNumber ← required "Failed to parse port_number." (tx.queryUnsignedValue value)
      readChildren tx { ret with portNumber := some portNumber } siblings
    else if child.name = lit "pcap" then do
      let value ← required "Failed to find pcap_capture." (child.findAttribute (lit "pcap_capture"))
      let pcapCapture ← required "Failed to parse pcap_capture." (tx.queryBoolValue value)
      readChildren tx { ret with pcapCapture := pcapCapture } siblings
    else if child.name = lit "list_port" then do
      let value ← required "Failed to find port." (child.findAttribute (lit "port"))
      let portNumber ← required "Failed to parse port_number." (tx.queryUnsignedValue value)
      readChildren tx { ret with blockMembers := ret.blockMembers ++ [.port portNumber] } siblings
    else if child.name = lit "list_hostname" then do
      let value ← required "Failed to find hostname." (child.findAttribute (lit "hostname"))
      readChildren tx { ret with blockMembers := ret.blockMembers ++ [.hostname value] } siblings
    else .error "Unknown element."

/-- `read_config`; there is no document where `LoadFile` failed. -/
def readConfig (tx : Queries) (loaded : Option XMLDocument) : Except String WoefulConfig := do
  let doc ← required "Failed to get file." loaded
  let root ← required "Failed to find root." (doc.firstChildElement (lit "config"))
  let blockType ← readBlockType root
  readChildren tx { blockType } root.children

/-! ## The grammar -/

/-- What an element under the root says. -/
inductive Entry where
  /-- `port` -/
  | port (number : UInt32)
  /-- `pcap` -/
  | pcap (capture : Bool)
  /-- `list_port` -/
  | listPort (number : UInt32)
  /-- `list_hostname` -/
  | listHostname (hostname : Bytes)
  deriving DecidableEq, Repr

namespace Entry

/-- The port to listen on. -/
def portNumber? : Entry → Option UInt32
  | port number => some number
  | _ => none

/-- Whether to capture. -/
def pcapCapture? : Entry → Option Bool
  | pcap capture => some capture
  | _ => none

/-- What is listed. -/
def member? : Entry → Option Member
  | listPort number => some (.port number)
  | listHostname hostname => some (.hostname hostname)
  | _ => none

end Entry

/-- An element is well formed, and what it says. -/
inductive Denotes (tx : Queries) (e : XMLElement) : Entry → Prop where
  /-- `<port port_number="…"/>` -/
  | port {value : Bytes} {number : UInt32} : e.name = lit "port" →
      e.findAttribute (lit "port_number") = some value →
      tx.queryUnsignedValue value = some number → Denotes tx e (.port number)
  /-- `<pcap pcap_capture="…"/>` -/
  | pcap {value : Bytes} {capture : Bool} : e.name = lit "pcap" →
      e.findAttribute (lit "pcap_capture") = some value →
      tx.queryBoolValue value = some capture → Denotes tx e (.pcap capture)
  /-- `<list_port port="…"/>` -/
  | listPort {value : Bytes} {number : UInt32} : e.name = lit "list_port" →
      e.findAttribute (lit "port") = some value →
      tx.queryUnsignedValue value = some number → Denotes tx e (.listPort number)
  /-- `<list_hostname hostname="…"/>` -/
  | listHostname {value : Bytes} : e.name = lit "list_hostname" →
      e.findAttribute (lit "hostname") = some value → Denotes tx e (.listHostname value)

/-- The root has this block type. -/
inductive HasBlockType (root : XMLRoot) : BlockType → Prop where
  /-- it has none -/
  | absent : root.findAttribute (lit "block_type") = none → HasBlockType root .none
  /-- `block_type="black"` -/
  | black : root.findAttribute (lit "block_type") = some (lit "black") → HasBlockType root .black
  /-- `block_type="white"` -/
  | white : root.findAttribute (lit "block_type") = some (lit "white") → HasBlockType root .white
  /-- `block_type="none"` -/
  | none : root.findAttribute (lit "block_type") = some (lit "none") → HasBlockType root .none

/-- The configuration is what these entries say: of the scalars the last one counts, and of
the lists everything, in order. -/
structure Says (entries : List Entry) (conf : WoefulConfig) : Prop where
  /-- the last `port` -/
  portNumber : conf.portNumber = (entries.filterMap Entry.portNumber?).getLast?
  /-- the last `pcap` -/
  pcapCapture : conf.pcapCapture = (entries.filterMap Entry.pcapCapture?).getLast?.getD false
  /-- every `list_port` and `list_hostname` -/
  blockMembers : conf.blockMembers = entries.filterMap Entry.member?

/-- There is a root with a block type, and every element under it is well formed. -/
inductive WellFormed (tx : Queries) (doc : XMLDocument) : Prop where
  /-- the root, and what is in it -/
  | intro {root : XMLRoot} {blockType : BlockType} :
      doc.firstChildElement (lit "config") = some root → HasBlockType root blockType →
      (∀ child ∈ root.children, ∃ entry, Denotes tx child entry) → WellFormed tx doc

/-- The document is a configuration, and which. -/
inductive Accepts (tx : Queries) (doc : XMLDocument) (conf : WoefulConfig) : Prop where
  /-- there is a root, and every child element is well formed -/
  | intro {root : XMLRoot} {entries : List Entry} :
      doc.firstChildElement (lit "config") = some root → HasBlockType root conf.blockType →
      List.Forall₂ (Denotes tx) root.children entries → Says entries conf → Accepts tx doc conf

/-! ## One element -/

namespace Entry

/-- What an entry adds to a configuration. -/
def apply (ret : WoefulConfig) : Entry → WoefulConfig
  | port number => { ret with portNumber := some number }
  | pcap capture => { ret with pcapCapture := capture }
  | listPort number => { ret with blockMembers := ret.blockMembers ++ [.port number] }
  | listHostname hostname => { ret with blockMembers := ret.blockMembers ++ [.hostname hostname] }

end Entry

variable {tx : Queries} {ret conf : WoefulConfig} {child : XMLElement} {siblings : List XMLElement}

/-- **One turn of the loop**: the element is well formed, what it says is added, and the loop
goes on with the next. -/
theorem readChildren_cons : readChildren tx ret (child :: siblings) = .ok conf ↔
    ∃ entry, Denotes tx child entry ∧ readChildren tx (entry.apply ret) siblings = .ok conf := by
  constructor
  · intro h
    rw [readChildren] at h
    split_ifs at h with hport hpcap hlistPort hlistHostname
    · obtain ⟨value, hvalue, h⟩ := andThen_eq_ok.mp h
      obtain ⟨number, hnumber, h⟩ := andThen_eq_ok.mp h
      exact ⟨.port number, .port hport (required_eq_ok.mp hvalue) (required_eq_ok.mp hnumber), h⟩
    · obtain ⟨value, hvalue, h⟩ := andThen_eq_ok.mp h
      obtain ⟨capture, hcapture, h⟩ := andThen_eq_ok.mp h
      exact ⟨.pcap capture, .pcap hpcap (required_eq_ok.mp hvalue) (required_eq_ok.mp hcapture), h⟩
    · obtain ⟨value, hvalue, h⟩ := andThen_eq_ok.mp h
      obtain ⟨number, hnumber, h⟩ := andThen_eq_ok.mp h
      exact ⟨.listPort number,
        .listPort hlistPort (required_eq_ok.mp hvalue) (required_eq_ok.mp hnumber), h⟩
    · obtain ⟨value, hvalue, h⟩ := andThen_eq_ok.mp h
      exact ⟨.listHostname value, .listHostname hlistHostname (required_eq_ok.mp hvalue), h⟩
  · rintro ⟨entry, hentry, h⟩
    rw [readChildren]
    cases hentry with
    | port hname hvalue hnumber =>
      rw [if_pos hname]
      exact andThen_eq_ok.mpr ⟨_, required_eq_ok.mpr hvalue,
        andThen_eq_ok.mpr ⟨_, required_eq_ok.mpr hnumber, h⟩⟩
    | pcap hname hvalue hcapture =>
      have hport : child.name ≠ lit "port" := by rw [hname]; decide
      rw [if_neg hport, if_pos hname]
      exact andThen_eq_ok.mpr ⟨_, required_eq_ok.mpr hvalue,
        andThen_eq_ok.mpr ⟨_, required_eq_ok.mpr hcapture, h⟩⟩
    | listPort hname hvalue hnumber =>
      have hport : child.name ≠ lit "port" := by rw [hname]; decide
      have hpcap : child.name ≠ lit "pcap" := by rw [hname]; decide
      rw [if_neg hport, if_neg hpcap, if_pos hname]
      exact andThen_eq_ok.mpr ⟨_, required_eq_ok.mpr hvalue,
        andThen_eq_ok.mpr ⟨_, required_eq_ok.mpr hnumber, h⟩⟩
    | listHostname hname hvalue =>
      have hport : child.name ≠ lit "port" := by rw [hname]; decide
      have hpcap : child.name ≠ lit "pcap" := by rw [hname]; decide
      have hlistPort : child.name ≠ lit "list_port" := by rw [hname]; decide
      rw [if_neg hport, if_neg hpcap, if_neg hlistPort, if_pos hname]
      exact andThen_eq_ok.mpr ⟨_, required_eq_ok.mpr hvalue, h⟩

/-! ## All the elements -/

variable {children : List XMLElement} {entries : List Entry} {entry : Entry}

/-- **The whole loop**: every element is well formed, and what they say is added in order. -/
theorem readChildren_eq_ok : readChildren tx ret children = .ok conf ↔
    ∃ entries, List.Forall₂ (Denotes tx) children entries ∧
      conf = entries.foldl Entry.apply ret := by
  induction children generalizing ret with
  | nil =>
    rw [readChildren, Except.ok.injEq]
    constructor
    · rintro rfl
      exact ⟨[], .nil, rfl⟩
    · rintro ⟨entries, hentries, hconf⟩
      cases hentries
      exact hconf.symm
  | cons child siblings ih =>
    rw [readChildren_cons]
    constructor
    · rintro ⟨entry, hentry, h⟩
      obtain ⟨entries, hentries, hconf⟩ := ih.mp h
      exact ⟨entry :: entries, .cons hentry hentries, hconf⟩
    · rintro ⟨entries, hentries, hconf⟩
      cases hentries with
      | cons hentry hentries => exact ⟨_, hentry, ih.mpr ⟨_, hentries, hconf⟩⟩

namespace Entry

@[simp] theorem blockType_apply : (entry.apply ret).blockType = ret.blockType := by
  cases entry <;> rfl

theorem portNumber_apply : (entry.apply ret).portNumber = entry.portNumber?.or ret.portNumber := by
  cases entry <;> rfl

theorem pcapCapture_apply :
    (entry.apply ret).pcapCapture = entry.pcapCapture?.getD ret.pcapCapture := by
  cases entry <;> rfl

theorem blockMembers_apply :
    (entry.apply ret).blockMembers = ret.blockMembers ++ entry.member?.toList := by
  cases entry <;> simp [apply, member?]

end Entry

@[simp] theorem blockType_foldl : (entries.foldl Entry.apply ret).blockType = ret.blockType := by
  induction entries generalizing ret with
  | nil => rfl
  | cons entry entries ih => rw [List.foldl_cons, ih, Entry.blockType_apply]

/-- What the entries leave behind: the scalars of the last that has them, and every member. -/
theorem says_foldl {blockType : BlockType} :
    Says entries (entries.foldl Entry.apply { blockType }) := by
  induction entries using List.reverseRecOn with
  | nil => exact ⟨rfl, rfl, rfl⟩
  | append_singleton entries entry ih =>
    rw [List.foldl_append]
    constructor
    · show (entry.apply _).portNumber = _
      rw [Entry.portNumber_apply, ih.portNumber, List.filterMap_append, List.getLast?_append]
      cases entry <;> rfl
    · show (entry.apply _).pcapCapture = _
      rw [Entry.pcapCapture_apply, ih.pcapCapture, List.filterMap_append, List.getLast?_append]
      cases entry <;> rfl
    · show (entry.apply _).blockMembers = _
      rw [Entry.blockMembers_apply, ih.blockMembers, List.filterMap_append]
      cases entry <;> rfl

/-- Nothing else is in a configuration. -/
theorem Says.eq_foldl (h : Says entries conf) :
    conf = entries.foldl Entry.apply { blockType := conf.blockType } := by
  have hfold := @says_foldl entries conf.blockType
  have hblock := @blockType_foldl { blockType := conf.blockType } entries
  generalize entries.foldl Entry.apply { blockType := conf.blockType } = conf' at hfold hblock
  have hmembers := h.blockMembers.trans hfold.blockMembers.symm
  have hpcap := h.pcapCapture.trans hfold.pcapCapture.symm
  have hport := h.portNumber.trans hfold.portNumber.symm
  cases conf
  cases conf'
  exact WoefulConfig.mk.injEq .. ▸ ⟨hblock.symm, hmembers, hpcap, hport⟩

/-! ## The whole file -/

variable {root : XMLRoot} {doc : XMLDocument} {blockType : BlockType}

theorem readBlockType_eq_ok : readBlockType root = .ok blockType ↔ HasBlockType root blockType := by
  constructor
  · intro h
    rw [readBlockType] at h
    split at h
    · rename_i habsent
      cases h
      exact .absent habsent
    · rename_i value hvalue
      split_ifs at h with hblack hwhite hnone <;> cases h
      · exact .black (hblack ▸ hvalue)
      · exact .white (hwhite ▸ hvalue)
      · exact .none (hnone ▸ hvalue)
  · intro h
    cases h with
    | absent h => rw [readBlockType, h]
    | black h | white h | none h =>
      rw [readBlockType, h]
      rfl

/-- `read_config` gives this configuration exactly when the document says so. -/
theorem readConfig_eq_ok : readConfig tx (some doc) = .ok conf ↔ Accepts tx doc conf := by
  constructor
  · intro h
    obtain ⟨_, hdoc, h⟩ := andThen_eq_ok.mp h
    cases hdoc
    obtain ⟨root, hroot, h⟩ := andThen_eq_ok.mp h
    obtain ⟨blockType, hblock, h⟩ := andThen_eq_ok.mp h
    obtain ⟨entries, hentries, rfl⟩ := readChildren_eq_ok.mp h
    refine ⟨required_eq_ok.mp hroot, ?_, hentries, says_foldl⟩
    rw [blockType_foldl]
    exact readBlockType_eq_ok.mp hblock
  · rintro ⟨hroot, hblock, hentries, hmeans⟩
    refine andThen_eq_ok.mpr ⟨_, rfl, andThen_eq_ok.mpr ⟨_, required_eq_ok.mpr hroot,
      andThen_eq_ok.mpr ⟨_, readBlockType_eq_ok.mpr hblock, ?_⟩⟩⟩
    exact readChildren_eq_ok.mpr ⟨_, hentries, hmeans.eq_foldl⟩

/-- Every element says something exactly when there is a list of what they say. -/
theorem forall_denotes_iff : (∀ child ∈ children, ∃ entry, Denotes tx child entry) ↔
    ∃ entries, List.Forall₂ (Denotes tx) children entries := by
  induction children with
  | nil => simp
  | cons child siblings ih =>
    rw [List.forall_mem_cons, ih]
    constructor
    · rintro ⟨⟨entry, hentry⟩, entries, hentries⟩
      exact ⟨entry :: entries, .cons hentry hentries⟩
    · rintro ⟨_, hentries⟩
      cases hentries with
      | cons hentry hentries => exact ⟨⟨_, hentry⟩, _, hentries⟩

theorem wellFormed_iff : WellFormed tx doc ↔ ∃ conf, Accepts tx doc conf := by
  constructor
  · rintro @⟨root, blockType, hroot, hblock, hchildren⟩
    obtain ⟨entries, hentries⟩ := forall_denotes_iff.mp hchildren
    refine ⟨entries.foldl Entry.apply { blockType }, hroot, ?_, hentries, says_foldl⟩
    rw [blockType_foldl]
    exact hblock
  · rintro ⟨conf, hroot, hblock, hentries, -⟩
    exact ⟨hroot, hblock, forall_denotes_iff.mpr ⟨_, hentries⟩⟩

/-- `read_config` accepts exactly its grammar: what it gives back is what the document says,
and it gives back an error where the document says nothing. -/
theorem readConfig_grammar (tx : Queries) (doc : XMLDocument) :
    ((∃ conf, readConfig tx (some doc) = .ok conf) ↔ WellFormed tx doc) ∧
    (∀ conf, readConfig tx (some doc) = .ok conf ↔ Accepts tx doc conf) ∧
    (¬WellFormed tx doc → ∃ message, readConfig tx (some doc) = .error message) := by
  have hiff : (∃ conf, readConfig tx (some doc) = .ok conf) ↔ WellFormed tx doc := by
    rw [wellFormed_iff]
    exact exists_congr fun conf => readConfig_eq_ok
  refine ⟨hiff, fun conf => readConfig_eq_ok, fun hbad => ?_⟩
  cases h : readConfig tx (some doc) with
  | error message => exact ⟨message, rfl⟩
  | ok conf => exact absurd (hiff.mp ⟨conf, h⟩) hbad

example (tx : Queries) : readConfig tx (some [{
    name := lit "config"
    attributes := [(lit "block_type", lit "black")]
    children := [{ name := lit "error", attributes := [] }] }]) = .error "Unknown element." := rfl

end Woeful
