import Woeful.Config
import Woeful.Members

/-!
# The filter, from the file to the connection

A configuration document is read, installed and consulted: `read_config` fills a vector of
members, `set_conf` assigns it over the one there was, and `open_stream` goes through copies of
its members with two flags. What comes of it is a matter of the document alone, and of what is
listed in it rather than of how (`Allows`, `filter_allows_iff`).
-/

namespace Woeful

open Memory Objects

/-! ## The loop and the two tests of `open_stream` -/

namespace RawConfig

/-- One turn of the loop: `member` is a copy, destroyed at the end of the turn. -/
def matchMember (hostname : Bytes) (port : UInt16) (matched : Bool × Bool) (m : RawMember) :
    Option (Bool × Bool) := do
  let member ← m.copy
  let matched' ←
    match member.type with
    | .hostname => do
      let name ← member.data.readHostname
      some (if name = hostname then (true, matched.2) else matched)
    | .port => do
      let number ← member.data.readPort
      some (if number = port.toUInt32 then (matched.1, true) else matched)
  member.destroy
  return matched'

/-- The loop over `block_members`. -/
def matchMembers (hostname : Bytes) (port : UInt16) :
    Bool × Bool → List RawMember → Option (Bool × Bool)
  | matched, [] => some matched
  | matched, m :: ms => do
    let matched' ← matchMember hostname port matched m
    matchMembers hostname port matched' ms

/-- The filter: whether `open_stream` goes on to `resolve`. It does not look at the type. -/
def filter (conf : RawConfig) (hostname : Bytes) (port : UInt16) : Option Bool := do
  let matched ← matchMembers hostname port (false, false) conf.blockMembers
  if conf.blockType = .black ∧ (matched.1 ∨ matched.2) then return false
  else if conf.blockType = .white ∧ ¬(matched.1 ∧ matched.2) then return false
  else return true

/-- The head of `open_stream`, up to `resolve`: the switch on the type, then the filter. -/
def openStream (conf : RawConfig) (hostname : Bytes) (type : UInt8) (port : UInt16) :
    Option Bool :=
  match SystemInterface.sockType type with
  | none => some false
  | some _ => conf.filter hostname port

end RawConfig

/-- Where the vectors of members get new storage. -/
structure Storage where
  /-- at which `push_back`s of `read_config`, by the number of elements so far -/
  pushes : Nat → Bool
  /-- in the assignment of `set_conf` -/
  assigns : Bool

/-- `main`: what `read_config` has read becomes the configuration. -/
def install (storage : Storage) (global : RawConfig) (conf : WoefulConfig) : Option RawConfig := do
  let blockMembers ← pushMembers storage.pushes [] conf.blockMembers
  setConf storage.assigns global { conf.raw with blockMembers }

/-- What the filter says once the configuration is installed. -/
def decision (storage : Storage) (global conf : WoefulConfig) (hostname : Bytes) (port : UInt16) :
    Option Bool := do
  let installed ← install storage global.raw conf
  installed.filter hostname port

/-! ## What the document says -/

/-- The root has this block type. -/
def BlockTypeOf (doc : XMLDocument) (blockType : BlockType) : Prop :=
  ∃ root, doc.firstChildElement (lit "config") = some root ∧ HasBlockType root blockType

/-- One of the elements says this. -/
def Lists (tx : Queries) (doc : XMLDocument) (entry : Entry) : Prop :=
  ∃ root, doc.firstChildElement (lit "config") = some root ∧
    ∃ child ∈ root.children, Denotes tx child entry

/-- The document allows connections to this host and port. -/
inductive Allows (tx : Queries) (doc : XMLDocument) (hostname : Bytes) (port : UInt16) : Prop where
  /-- it blocks nothing -/
  | none : BlockTypeOf doc .none → Allows tx doc hostname port
  /-- neither is listed in a blacklist -/
  | black : BlockTypeOf doc .black → ¬Lists tx doc (.listHostname hostname) →
      ¬Lists tx doc (.listPort port.toUInt32) → Allows tx doc hostname port
  /-- both are listed in a whitelist -/
  | white : BlockTypeOf doc .white → Lists tx doc (.listHostname hostname) →
      Lists tx doc (.listPort port.toUInt32) → Allows tx doc hostname port

/-- The two documents have the same block type and list the same hostnames and ports. -/
structure SameLists (tx : Queries) (doc doc' : XMLDocument) : Prop where
  /-- the block type -/
  blockType : ∀ blockType, BlockTypeOf doc blockType ↔ BlockTypeOf doc' blockType
  /-- the hostnames -/
  hostnames : ∀ hostname,
    Lists tx doc (.listHostname hostname) ↔ Lists tx doc' (.listHostname hostname)
  /-- the ports -/
  ports : ∀ number, Lists tx doc (.listPort number) ↔ Lists tx doc' (.listPort number)

/-- `doc'` has one more element under the root, somewhere. -/
inductive Adds (doc doc' : XMLDocument) : Prop where
  /-- the root, and the elements before and after the new one -/
  | intro {root : XMLRoot} {child : XMLElement} {before after : List XMLElement} :
      doc.firstChildElement (lit "config") = some root → root.children = before ++ after →
      doc'.firstChildElement (lit "config") =
        some { root with children := before ++ child :: after } → Adds doc doc'

/-! ## The objects compute what the values do -/

namespace SystemInterface

/-- The filter, of values. -/
def filter (conf : WoefulConfig) (hostname : Bytes) (port : UInt16) : Bool :=
  let matched := conf.blockMembers.foldl (matchMember hostname port) (false, false)
  !(conf.blockType == .black && (matched.1 || matched.2)) &&
    !(conf.blockType == .white && !(matched.1 && matched.2))

theorem passesFilter_eq {conf : WoefulConfig} {hostname : Bytes} {type : UInt8} {port : UInt16} :
    passesFilter conf hostname type port =
      ((sockType type).isSome && filter conf hostname port) := by
  rw [passesFilter, filter, Bool.and_assoc]

end SystemInterface

section Filter

variable {conf global : WoefulConfig} {hostname : Bytes} {type : UInt8} {port : UInt16}
  {matched : Bool × Bool} {ms : List Member} {storage : Storage}

theorem RawConfig.matchMember_raw (m : Member) :
    RawConfig.matchMember hostname port matched m.raw =
      some (SystemInterface.matchMember hostname port matched m) := by
  cases m <;> rfl

theorem RawConfig.matchMembers_raw :
    RawConfig.matchMembers hostname port matched (ms.map Member.raw) =
      some (ms.foldl (SystemInterface.matchMember hostname port) matched) := by
  induction ms generalizing matched with
  | nil => rfl
  | cons m ms ih =>
    rw [List.map_cons, RawConfig.matchMembers, RawConfig.matchMember_raw]
    exact ih

theorem RawConfig.filter_raw :
    conf.raw.filter hostname port = some (SystemInterface.filter conf hostname port) := by
  show (RawConfig.matchMembers hostname port (false, false)
    (conf.blockMembers.map Member.raw)).bind _ = _
  rw [RawConfig.matchMembers_raw, SystemInterface.filter]
  generalize conf.blockMembers.foldl _ _ = matched
  obtain ⟨isMatchedHostname, isMatchedPort⟩ := matched
  show (if conf.blockType = .black ∧ (isMatchedHostname ∨ isMatchedPort) then some false
    else if conf.blockType = .white ∧ ¬(isMatchedHostname ∧ isMatchedPort) then some false
    else some true) = _
  cases conf.blockType <;> cases isMatchedHostname <;> cases isMatchedPort <;> rfl

/-- The head of `open_stream` is what the server's model has of it. -/
theorem RawConfig.openStream_raw : conf.raw.openStream hostname type port =
    some (SystemInterface.passesFilter conf hostname type port) := by
  rw [RawConfig.openStream, SystemInterface.passesFilter_eq]
  cases SystemInterface.sockType type with
  | none => rfl
  | some _ => exact RawConfig.filter_raw

/-- What is installed is what was read, whatever was there. -/
theorem install_raw : install storage global.raw conf = some conf.raw := by
  have hpush : pushMembers storage.pushes [] conf.blockMembers =
      some (conf.blockMembers.map Member.raw) :=
    @pushMembers_raw storage.pushes [] conf.blockMembers
  rw [install, hpush]
  exact setConf_raw

theorem decision_eq : decision storage global conf hostname port =
    some (SystemInterface.filter conf hostname port) := by
  rw [decision, install_raw]
  exact RawConfig.filter_raw

/-! ## What the two flags are -/

namespace SystemInterface

/-- After the loop the flags say what is listed. -/
theorem foldl_matchMember : ms.foldl (matchMember hostname port) matched =
    (matched.1 || decide (.hostname hostname ∈ ms),
      matched.2 || decide (.port port.toUInt32 ∈ ms)) := by
  induction ms generalizing matched with
  | nil => simp
  | cons m ms ih =>
    rw [List.foldl_cons, ih]
    cases m with
    | hostname name =>
      by_cases h : name = hostname
      · simp [matchMember, h]
      · simp [matchMember, h, Ne.symm h]
    | port number =>
      by_cases h : number = port.toUInt32
      · simp [matchMember, h]
      · simp [matchMember, h, Ne.symm h]

/-- The filter in terms of what is listed. -/
theorem filter_iff : filter conf hostname port = true ↔ conf.blockType = .none ∨
    (conf.blockType = .black ∧ .hostname hostname ∉ conf.blockMembers ∧
      .port port.toUInt32 ∉ conf.blockMembers) ∨
    (conf.blockType = .white ∧ .hostname hostname ∈ conf.blockMembers ∧
      .port port.toUInt32 ∈ conf.blockMembers) := by
  rw [filter, foldl_matchMember]
  cases conf.blockType <;> simp

end SystemInterface

end Filter

/-! ## What is listed -/

section Document

variable {tx : Queries} {doc doc' : XMLDocument} {conf conf' : WoefulConfig} {e : XMLElement}
  {root : XMLRoot} {hostname : Bytes} {port : UInt16}

/-- An element says one thing. -/
theorem Denotes.unique {a b : Entry} (ha : Denotes tx e a) (hb : Denotes tx e b) : a = b := by
  have hread : ∀ {entry}, Denotes tx e entry →
      readChildren tx {} [e] = .ok (entry.apply {}) :=
    fun hentry => readChildren_cons.mpr ⟨_, hentry, rfl⟩
  have happly := Except.ok.inj ((hread ha).symm.trans (hread hb))
  cases a <;> cases b <;> cases happly <;> rfl

/-- What the elements say, all together, is what one of them says. -/
theorem mem_entries_iff {children : List XMLElement} {entries : List Entry} {entry : Entry}
    (h : List.Forall₂ (Denotes tx) children entries) :
    entry ∈ entries ↔ ∃ child ∈ children, Denotes tx child entry := by
  induction h with
  | nil => simp
  | cons hentry _ ih =>
    rw [List.mem_cons, ih]
    simp only [List.mem_cons, exists_eq_or_imp]
    exact or_congr ⟨fun h => h ▸ hentry, fun h => h.unique hentry⟩ Iff.rfl

theorem Entry.member?_inj {a b : Entry} {m : Member} (ha : a.member? = some m)
    (hb : b.member? = some m) : a = b := by
  cases a <;> cases b <;> cases ha <;> cases hb <;> rfl

theorem HasBlockType.unique {a b : BlockType} (ha : HasBlockType root a)
    (hb : HasBlockType root b) : a = b :=
  Except.ok.inj ((readBlockType_eq_ok.mpr ha).symm.trans (readBlockType_eq_ok.mpr hb))

/-- The block type that was read is the one of the document. -/
theorem Accepts.blockTypeOf_iff (h : Accepts tx doc conf) {blockType : BlockType} :
    BlockTypeOf doc blockType ↔ conf.blockType = blockType := by
  cases h with
  | intro hroot hblock =>
    constructor
    · rintro ⟨root', hroot', hblock'⟩
      obtain rfl := Option.some.inj (hroot.symm.trans hroot')
      exact hblock.unique hblock'
    · rintro rfl
      exact ⟨_, hroot, hblock⟩

/-- The members that were read are those the document lists. -/
theorem Accepts.lists_iff (h : Accepts tx doc conf) {entry : Entry} {m : Member}
    (hm : entry.member? = some m) : Lists tx doc entry ↔ m ∈ conf.blockMembers := by
  cases h with
  | intro hroot _ hentries hmeans =>
    rw [hmeans.blockMembers, List.mem_filterMap]
    constructor
    · rintro ⟨root', hroot', hentry⟩
      obtain rfl := Option.some.inj (hroot.symm.trans hroot')
      exact ⟨entry, (mem_entries_iff hentries).mpr hentry, hm⟩
    · rintro ⟨entry', hmem, hm'⟩
      obtain rfl := Entry.member?_inj hm hm'
      exact ⟨_, hroot, (mem_entries_iff hentries).mp hmem⟩

theorem Accepts.allows_iff (h : Accepts tx doc conf) :
    SystemInterface.filter conf hostname port = true ↔ Allows tx doc hostname port := by
  have hblock := @h.blockTypeOf_iff
  have hhost : Lists tx doc (.listHostname hostname) ↔ _ := h.lists_iff rfl
  have hport : Lists tx doc (.listPort port.toUInt32) ↔ _ := h.lists_iff rfl
  rw [SystemInterface.filter_iff, ← hhost, ← hport, ← hblock, ← hblock, ← hblock]
  constructor
  · rintro (hnone | ⟨hblack, hh, hp⟩ | ⟨hwhite, hh, hp⟩)
    · exact .none hnone
    · exact .black hblack hh hp
    · exact .white hwhite hh hp
  · rintro (hnone | ⟨hblack, hh, hp⟩ | ⟨hwhite, hh, hp⟩)
    · exact Or.inl hnone
    · exact Or.inr (Or.inl ⟨hblack, hh, hp⟩)
    · exact Or.inr (Or.inr ⟨hwhite, hh, hp⟩)

theorem SameLists.symm (h : SameLists tx doc doc') : SameLists tx doc' doc :=
  ⟨fun b => (h.blockType b).symm, fun n => (h.hostnames n).symm, fun n => (h.ports n).symm⟩

theorem SameLists.allows (h : SameLists tx doc doc') (ha : Allows tx doc hostname port) :
    Allows tx doc' hostname port := by
  cases ha with
  | none hnone => exact .none ((h.blockType _).mp hnone)
  | black hblack hh hp =>
    exact .black ((h.blockType _).mp hblack) (mt (h.hostnames _).mpr hh) (mt (h.ports _).mpr hp)
  | white hwhite hh hp =>
    exact .white ((h.blockType _).mp hwhite) ((h.hostnames _).mp hh) ((h.ports _).mp hp)

/-- A block type is the only one. -/
theorem BlockTypeOf.unique {a b : BlockType} (ha : BlockTypeOf doc a) (hb : BlockTypeOf doc b) :
    a = b := by
  obtain ⟨root, hroot, ha⟩ := ha
  obtain ⟨root', hroot', hb⟩ := hb
  obtain rfl := Option.some.inj (hroot.symm.trans hroot')
  exact ha.unique hb

/-- Another element is no other block type. -/
theorem Adds.blockTypeOf (h : Adds doc doc') {blockType : BlockType}
    (hb : BlockTypeOf doc blockType) : BlockTypeOf doc' blockType := by
  obtain ⟨hroot, -, hroot'⟩ := h
  obtain ⟨root, hroot₀, hb⟩ := hb
  obtain rfl := Option.some.inj (hroot.symm.trans hroot₀)
  refine ⟨_, hroot', ?_⟩
  cases hb with
  | absent h => exact .absent h
  | black h => exact .black h
  | white h => exact .white h
  | none h => exact .none h

/-- Another element leaves what is listed. -/
theorem Adds.lists (h : Adds doc doc') {entry : Entry} (hl : Lists tx doc entry) :
    Lists tx doc' entry := by
  obtain ⟨hroot, hchildren, hroot'⟩ := h
  obtain ⟨root, hroot₀, child, hchild, hentry⟩ := hl
  obtain rfl := Option.some.inj (hroot.symm.trans hroot₀)
  refine ⟨_, hroot', child, ?_, hentry⟩
  rw [hchildren, List.mem_append] at hchild
  exact List.mem_append.mpr (hchild.imp_right (List.mem_cons_of_mem _))

theorem Adds.allows_of_black (h : Adds doc doc') (hblack : BlockTypeOf doc .black)
    (ha : Allows tx doc' hostname port) : Allows tx doc hostname port := by
  cases ha with
  | none hnone => cases hnone.unique (h.blockTypeOf hblack)
  | black _ hh hp => exact .black hblack (mt h.lists hh) (mt h.lists hp)
  | white hwhite => cases hwhite.unique (h.blockTypeOf hblack)

theorem Adds.allows_of_white (h : Adds doc doc') (hwhite : BlockTypeOf doc .white)
    (ha : Allows tx doc hostname port) : Allows tx doc' hostname port := by
  cases ha with
  | none hnone => exact .none (h.blockTypeOf hnone)
  | black hblack => cases hblack.unique hwhite
  | white _ hh hp => exact .white (h.blockTypeOf hwhite) (h.lists hh) (h.lists hp)

end Document

/-! ## From the file to the connection -/

/-- The filter allows what the document allows, whatever was installed before and wherever the
members are stored; it does so by what is listed alone, and another list element never makes a
blacklist allow more or a whitelist less. -/
theorem filter_allows_iff (tx : Queries) (doc : XMLDocument) (conf : WoefulConfig)
    (hread : readConfig tx (some doc) = .ok conf) (storage : Storage) (global : WoefulConfig) :
    (∀ hostname port, ∃ allowed, decision storage global conf hostname port = some allowed ∧
      (allowed = true ↔ Allows tx doc hostname port) ∧
      ∀ type, (install storage global.raw conf).bind (·.openStream hostname type port) =
        some ((SystemInterface.sockType type).isSome && allowed)) ∧
    ∀ doc' conf' storage' global', readConfig tx (some doc') = .ok conf' →
      (SameLists tx doc doc' → ∀ hostname port,
        decision storage' global' conf' hostname port =
          decision storage global conf hostname port) ∧
      (Adds doc doc' → ∀ hostname port,
        (BlockTypeOf doc .black → decision storage' global' conf' hostname port = some true →
          decision storage global conf hostname port = some true) ∧
        (BlockTypeOf doc .white → decision storage global conf hostname port = some true →
          decision storage' global' conf' hostname port = some true)) := by
  have hdecision : ∀ {doc conf storage global hostname port},
      readConfig tx (some doc) = .ok conf →
      (decision storage global conf hostname port = some true ↔ Allows tx doc hostname port) := by
    intro doc conf storage global hostname port hread
    rw [decision_eq, Option.some.injEq]
    exact (readConfig_eq_ok.mp hread).allows_iff
  refine ⟨?_, ?_⟩
  · intro hostname port
    refine ⟨_, decision_eq, (readConfig_eq_ok.mp hread).allows_iff, ?_⟩
    intro type
    rw [install_raw, ← SystemInterface.passesFilter_eq]
    exact RawConfig.openStream_raw
  · intro doc' conf' storage' global' hread'
    refine ⟨?_, ?_⟩
    · intro hsame hostname port
      rw [decision_eq, decision_eq, Option.some.injEq, Bool.eq_iff_iff,
        (readConfig_eq_ok.mp hread).allows_iff, (readConfig_eq_ok.mp hread').allows_iff]
      exact ⟨hsame.symm.allows, hsame.allows⟩
    · intro hadds hostname port
      rw [hdecision hread, hdecision hread']
      exact ⟨hadds.allows_of_black, hadds.allows_of_white⟩

/-! ### The blacklist of the tests -/

/-- tinyxml2 at the values in `tests/blacklist.xml`. -/
def blacklistQueries : Queries where
  queryUnsignedValue value :=
    if value = lit "8080" then some 8080 else if value = lit "22" then some 22 else none
  queryBoolValue value := if value = lit "true" then some true else none

/-- `tests/blacklist.xml` -/
def blacklistXml : XMLDocument :=
  [{ name := lit "config"
     attributes := [(lit "block_type", lit "black")]
     children :=
      [{ name := lit "port", attributes := [(lit "port_number", lit "8080")] },
       { name := lit "pcap", attributes := [(lit "pcap_capture", lit "true")] },
       { name := lit "list_hostname", attributes := [(lit "hostname", lit "example.com")] },
       { name := lit "list_port", attributes := [(lit "port", lit "22")] }] }]

/-- What is read from it. -/
def blacklistConf : WoefulConfig where
  blockType := .black
  blockMembers := [.hostname (lit "example.com"), .port 22]
  pcapCapture := true
  portNumber := some 8080

/-- It does not allow its host, installed in the storage of a whitelist that was there. -/
theorem filter_allows_iff_blacklist :
    readConfig blacklistQueries (some blacklistXml) = .ok blacklistConf ∧
      ¬Allows blacklistQueries blacklistXml (lit "example.com") 80 := by
  have hread : readConfig blacklistQueries (some blacklistXml) = .ok blacklistConf := rfl
  refine ⟨hread, fun hallows => ?_⟩
  have hfilter := filter_allows_iff blacklistQueries blacklistXml blacklistConf hread
    { pushes := fun _ => true, assigns := false }
    { blockType := .white, blockMembers := [.port 80, .hostname (lit "example.org")] }
  obtain ⟨allowed, hdecision, hiff, -⟩ := hfilter.1 (lit "example.com") 80
  rw [hiff.mpr hallows] at hdecision
  revert hdecision
  decide

end Woeful
