import Mathlib.Logic.Function.Basic
import Woeful.Packets

/-!
# The system interface

`systemInterface.h` and the part of the kernel it talks to: the filter that
`open_stream` applies before it connects, the descriptor table, and the epoll
set of `EpollWrapper`.

A descriptor is a number the kernel hands out and takes back; what it stands
for is an open file. The table keeps the two apart: every `socket()` call makes
a *new* socket (they are numbered in order of creation), while its descriptor
may be any number not in use, one of a closed socket included. Descriptors the
rest of the process holds are not in the table; `socket()` never being forced
to return one of them is the only thing they could add.
-/

namespace Woeful

open Memory

/-! ## The filter of `open_stream` -/

/-- `WoefulConfig::BlockType` -/
inductive BlockType where
  /-- `BLOCK_NONE` -/
  | none
  /-- `BLOCK_WHITE` -/
  | white
  /-- `BLOCK_BLACK` -/
  | black
  deriving DecidableEq, Repr

/-- `WoefulConfig::Member`, one listed hostname or port. -/
inductive Member where
  /-- `MEMBER_HOSTNAME` -/
  | hostname : Bytes → Member
  /-- `MEMBER_PORT` -/
  | port : UInt32 → Member
  deriving DecidableEq, Repr

/-- `member.type == MEMBER_HOSTNAME` -/
def Member.isHostname : Member → Bool
  | hostname _ => true
  | port _ => false

/-- `WoefulConfig`, as `get_conf` returns it. -/
structure WoefulConfig where
  /-- `block_type` -/
  blockType : BlockType := .none
  /-- `block_members`, in document order -/
  blockMembers : List Member := []
  /-- `pcap_capture` -/
  pcapCapture : Bool := false
  /-- `port_number` -/
  portNumber : Option UInt32 := none
  deriving DecidableEq, Repr

/-- The socket type of a stream type: only TCP and UDP have one. -/
inductive SockType where
  /-- `SOCK_STREAM` -/
  | stream
  /-- `SOCK_DGRAM` -/
  | dgram
  deriving DecidableEq, Repr

namespace SystemInterface

/-- The `switch` at the top of `open_stream`. -/
def sockType (type : UInt8) : Option SockType :=
  if type = 0x01 then some .stream else if type = 0x02 then some .dgram else none

/-- One turn of the loop over `block_members`: which of the two flags
(hostname, port) are raised so far. -/
def matchMember (hostname : Bytes) (port : UInt16) (matched : Bool × Bool) :
    Member → Bool × Bool
  | .hostname name => if name = hostname then (true, matched.2) else matched
  | .port number => if number = port.toUInt32 then (matched.1, true) else matched

/-- Whether `open_stream` gets past the stream type and the filter. -/
def passesFilter (conf : WoefulConfig) (hostname : Bytes) (type : UInt8) (port : UInt16) : Bool :=
  let matched := conf.blockMembers.foldl (matchMember hostname port) (false, false)
  (sockType type).isSome &&
    !(conf.blockType == .black && (matched.1 || matched.2)) &&
    !(conf.blockType == .white && !(matched.1 && matched.2))

/-- Whether `open_stream` returns before it looks at the hostname: the stream type has no
socket, or there is no name to compare it with and the filter stops every CONNECT to the port. -/
def refusesUnread (conf : WoefulConfig) (type : UInt8) (port : UInt16) : Bool :=
  (sockType type).isNone ||
    conf.blockMembers.all (fun member => !member.isHostname) && !passesFilter conf [] type port

/-- Where no hostname is listed, none matters. -/
theorem foldl_matchMember_of_ports {hostname hostname' : Bytes} {port : UInt16} :
    ∀ (members : List Member) (matched : Bool × Bool),
      members.all (fun member => !member.isHostname) = true →
      members.foldl (matchMember hostname port) matched =
        members.foldl (matchMember hostname' port) matched := by
  intro members
  induction members with
  | nil => exact fun _ _ => rfl
  | cons member members ih =>
    intro matched h
    rw [List.all_cons, Bool.and_eq_true] at h
    cases member with
    | hostname name => cases h.1
    | port number => exact ih _ h.2

/-- A CONNECT that is refused so does not pass the filter, whatever its hostname is. -/
theorem passesFilter_of_refusesUnread {conf : WoefulConfig} {hostname : Bytes} {type : UInt8}
    {port : UInt16} (h : refusesUnread conf type port = true) :
    passesFilter conf hostname type port = false := by
  rw [refusesUnread, Bool.or_eq_true] at h
  rcases h with htype | hports
  · rw [passesFilter, Option.isNone_iff_eq_none.mp htype]
    rfl
  · rw [Bool.and_eq_true, Bool.not_eq_true'] at hports
    rw [← hports.2, passesFilter, passesFilter,
      @foldl_matchMember_of_ports hostname [] port _ _ hports.1]

end SystemInterface

/-! ## Descriptors and the epoll set -/

/-- A file descriptor. -/
abbrev Fd := Nat

/-- What an open descriptor stands for. -/
inductive File where
  /-- the read end of the pipe that wakes the watcher -/
  | pipe
  /-- the socket made by the `n`-th call of `socket()` -/
  | sock (n : Nat)
  deriving DecidableEq, Repr

/-- The kernel's side: the descriptor table and the interest list of `epfd`.
The last three fields are what the kernel guarantees of them. -/
structure Kernel where
  /-- the descriptor table -/
  files : Fd → Option File
  /-- the descriptors registered with `epfd` -/
  epoll : List Fd
  /-- for every socket made so far, the manager and the stream it was made for -/
  socks : List (Nat × UInt32)
  /-- closing a descriptor also takes it out of the interest list -/
  epoll_open : ∀ fd ∈ epoll, files fd ≠ none
  /-- only sockets that were made are in the table -/
  sock_lt : ∀ fd n, files fd = some (.sock n) → n < socks.length
  /-- nothing duplicates a descriptor -/
  sock_inj : ∀ fd fd' n, files fd = some (.sock n) → files fd' = some (.sock n) → fd = fd'

namespace Kernel

/-- The table before any socket is made: the wake pipe, registered. -/
def initial (pipes0 : Fd) : Kernel where
  files := Function.update (fun _ => none) pipes0 (some .pipe)
  epoll := [pipes0]
  socks := []
  epoll_open := by
    intro fd hfd
    obtain rfl := List.mem_singleton.mp hfd
    simp
  sock_lt := by
    intro fd n h
    rw [Function.update_apply] at h
    split at h <;> cases h
  sock_inj := by
    intro fd fd' n h
    rw [Function.update_apply] at h
    split at h <;> cases h

/-- The socket a descriptor stands for, if it stands for one. -/
def sockAt (k : Kernel) (fd : Fd) : Option Nat :=
  match k.files fd with
  | some (.sock n) => some n
  | _ => none

theorem sockAt_eq_some {k : Kernel} {fd : Fd} {n : Nat} :
    k.sockAt fd = some n ↔ k.files fd = some (.sock n) := by
  rw [sockAt]
  split
  · rename_i m hm
    rw [hm]
    simp
  · rename_i hne
    constructor
    · intro h
      cases h
    · intro h
      exact absurd h (hne n)

/-- `socket()` returning a descriptor that is not in use. -/
def socket (k : Kernel) (fd : Fd) (_hfd : k.files fd = none) (owner : Nat × UInt32) : Kernel where
  files := Function.update k.files fd (some (.sock k.socks.length))
  epoll := k.epoll
  socks := k.socks ++ [owner]
  epoll_open := by
    intro fd' hfd'
    rw [Function.update_apply]
    split
    · simp
    · exact k.epoll_open fd' hfd'
  sock_lt := by
    intro fd' n h
    rw [Function.update_apply] at h
    rw [List.length_append, List.length_singleton]
    split at h
    · obtain rfl := File.sock.inj (Option.some.inj h)
      omega
    · have := k.sock_lt fd' n h
      omega
  sock_inj := by
    intro fd₁ fd₂ n h₁ h₂
    rw [Function.update_apply] at h₁ h₂
    split at h₁ <;> split at h₂
    · rename_i e₁ e₂
      exact e₁.trans e₂.symm
    · obtain rfl := File.sock.inj (Option.some.inj h₁)
      exact absurd (k.sock_lt _ _ h₂) (Nat.lt_irrefl _)
    · obtain rfl := File.sock.inj (Option.some.inj h₂)
      exact absurd (k.sock_lt _ _ h₁) (Nat.lt_irrefl _)
    · exact k.sock_inj fd₁ fd₂ n h₁ h₂

/-- `close(fd)` -/
def close (k : Kernel) (fd : Fd) : Kernel where
  files := Function.update k.files fd none
  epoll := k.epoll.filter (· ≠ fd)
  socks := k.socks
  epoll_open := by
    intro fd' hfd'
    obtain ⟨hmem, hne⟩ := List.mem_filter.mp hfd'
    rw [Function.update_of_ne (by simpa using hne)]
    exact k.epoll_open fd' hmem
  sock_lt := by
    intro fd' n h
    rw [Function.update_apply] at h
    split at h
    · cases h
    · exact k.sock_lt fd' n h
  sock_inj := by
    intro fd₁ fd₂ n h₁ h₂
    rw [Function.update_apply] at h₁ h₂
    split at h₁
    · cases h₁
    · split at h₂
      · cases h₂
      · exact k.sock_inj fd₁ fd₂ n h₁ h₂

/-- `EpollWrapper::push_fd`. `ok` is the kernel's answer; the code ignores it. -/
def pushFd (k : Kernel) (fd : Fd) (ok : Bool) : Kernel :=
  if h : ok = true ∧ k.files fd ≠ none ∧ fd ∉ k.epoll then
    { k with
      epoll := fd :: k.epoll
      epoll_open := by
        intro fd' hfd'
        rcases List.mem_cons.mp hfd' with rfl | hfd'
        · exact h.2.1
        · exact k.epoll_open fd' hfd' }
  else k

/-- `EpollWrapper::erase_fd`; it has no effect on a descriptor that is not registered. -/
def eraseFd (k : Kernel) (fd : Fd) : Kernel where
  files := k.files
  epoll := k.epoll.filter (· ≠ fd)
  socks := k.socks
  epoll_open := fun fd' hfd' => k.epoll_open fd' (List.mem_filter.mp hfd').1
  sock_lt := k.sock_lt
  sock_inj := k.sock_inj

/-! ### What the calls do to the table -/

theorem sockAt_lt {k : Kernel} {fd : Fd} {n : Nat} (h : k.sockAt fd = some n) :
    n < k.socks.length :=
  k.sock_lt fd n (sockAt_eq_some.mp h)

theorem sockAt_inj {k : Kernel} {fd fd' : Fd} {n : Nat} (h : k.sockAt fd = some n)
    (h' : k.sockAt fd' = some n) : fd = fd' :=
  k.sock_inj fd fd' n (sockAt_eq_some.mp h) (sockAt_eq_some.mp h')

theorem sockAt_congr {k k' : Kernel} (h : k'.files = k.files) : k'.sockAt = k.sockAt := by
  funext fd
  rw [sockAt, sockAt, h]

theorem sockAt_of_none {k : Kernel} {fd : Fd} (h : k.files fd = none) : k.sockAt fd = none := by
  rw [sockAt, h]

theorem files_of_sockAt {k : Kernel} {fd : Fd} {n : Nat} (h : k.sockAt fd = some n) :
    k.files fd ≠ none := by
  rw [sockAt_eq_some.mp h]
  simp

section Socket

variable {k : Kernel} {fd : Fd} (hfd : k.files fd = none) {owner : Nat × UInt32}

@[simp] theorem sockAt_socket_self : (k.socket fd hfd owner).sockAt fd = some k.socks.length := by
  simp [sockAt, socket]

theorem sockAt_socket_ne {fd' : Fd} (h : fd' ≠ fd) :
    (k.socket fd hfd owner).sockAt fd' = k.sockAt fd' := by
  simp [sockAt, socket, h]

@[simp] theorem socks_socket : (k.socket fd hfd owner).socks = k.socks ++ [owner] := rfl

/-- A socket other than the new one is where it was. -/
theorem sockAt_socket_old {fd' : Fd} {n : Nat} (hn : n < k.socks.length) :
    (k.socket fd hfd owner).sockAt fd' = some n ↔ k.sockAt fd' = some n := by
  by_cases h : fd' = fd
  · subst h
    rw [sockAt_socket_self hfd, sockAt_of_none hfd]
    constructor
    · intro he
      obtain rfl := Option.some.inj he
      exact absurd hn (Nat.lt_irrefl _)
    · intro he
      cases he
  · rw [sockAt_socket_ne hfd h]

end Socket

@[simp] theorem sockAt_close_self {k : Kernel} {fd : Fd} : (k.close fd).sockAt fd = none := by
  simp [sockAt, close]

theorem sockAt_close_ne {k : Kernel} {fd fd' : Fd} (h : fd' ≠ fd) :
    (k.close fd).sockAt fd' = k.sockAt fd' := by
  simp [sockAt, close, h]

theorem mem_epoll_close {k : Kernel} {fd fd' : Fd} :
    fd' ∈ (k.close fd).epoll ↔ fd' ∈ k.epoll ∧ fd' ≠ fd := by
  simp [close]

@[simp] theorem files_pushFd {k : Kernel} {fd : Fd} {ok : Bool} :
    (k.pushFd fd ok).files = k.files := by
  rw [pushFd]
  split <;> rfl

@[simp] theorem socks_pushFd {k : Kernel} {fd : Fd} {ok : Bool} :
    (k.pushFd fd ok).socks = k.socks := by
  rw [pushFd]
  split <;> rfl

theorem mem_epoll_pushFd {k : Kernel} {fd fd' : Fd} {ok : Bool}
    (h : fd' ∈ (k.pushFd fd ok).epoll) : fd' = fd ∨ fd' ∈ k.epoll := by
  rw [pushFd] at h
  split at h
  · exact List.mem_cons.mp h
  · exact Or.inr h

theorem mem_epoll_pushFd_of_mem {k : Kernel} {fd fd' : Fd} {ok : Bool} (h : fd' ∈ k.epoll) :
    fd' ∈ (k.pushFd fd ok).epoll := by
  rw [pushFd]
  split
  · exact List.mem_cons_of_mem _ h
  · exact h

/-- A registration that the kernel accepts. -/
theorem mem_epoll_pushFd_true {k : Kernel} {fd : Fd} (h : k.files fd ≠ none) :
    fd ∈ (k.pushFd fd true).epoll := by
  rw [pushFd]
  split
  · exact List.mem_cons_self ..
  · rename_i hno
    by_contra hmem
    exact hno ⟨rfl, h, hmem⟩

theorem mem_epoll_eraseFd {k : Kernel} {fd fd' : Fd} :
    fd' ∈ (k.eraseFd fd).epoll ↔ fd' ∈ k.epoll ∧ fd' ≠ fd := by
  simp [eraseFd]

@[simp] theorem sockAt_pushFd {k : Kernel} {fd : Fd} {ok : Bool} :
    (k.pushFd fd ok).sockAt = k.sockAt :=
  sockAt_congr files_pushFd

end Kernel

end Woeful
