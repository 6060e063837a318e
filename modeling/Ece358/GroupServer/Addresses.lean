/-
  File:      Ece358/GroupServer/Addresses.lean
  Subject:   How the clients find the server, and how the UDP server tells them apart.

  The server takes the first good interface, binds the first port of its range that it gets, and
  prints both. It frees the list of the interfaces before it reads the address of the one that it
  has chosen. A client is started with the two words of that line: it has the first one looked up,
  and takes the first IPv4 address that comes of it.

  * `is_good_interface`, `chosen`, `inet_ntoa`, `inet_pton`, `get_port_and_bind`, `startServer`,
    `get_client_connection_string` -- the server up to its `run`;
  * `Intact` -- the entry that it has chosen still says what it said before it was freed;
  * `lookupHost`, `UDPClient.set_host_info`, `TCPClient.set_host_info` -- the arguments of a client;
  * `inet_pton_ntoa` -- an address that was written is read back;
  * `server_found` -- where the server is, and that both clients come to it;
  * `client_numbers` -- the table of the UDP server, over all runs.
-/
import Ece358.Api
import Ece358.GroupServer.ServerMain
import Ece358.GroupServer.UdpServer

namespace Ece358.GroupServer

open Lib

/-! ## 1. The start of the server -/

/-- Of sys/socket.h, as on Linux. -/
def AF_INET : Nat := 2

/-- Of net/if.h. -/
def IFF_LOOPBACK : UInt32 := 8

/-- The address of an interface; `sin_addr` is read of those of the family AF_INET only. -/
structure IfAddr where
  sa_family : Nat
  sin_addr : UInt32
  deriving DecidableEq

/-- An entry of getifaddrs; an interface without an address has a NULL for `ifa_addr`. -/
structure Ifaddrs where
  ifa_flags : UInt32
  ifa_addr : Option IfAddr
  deriving DecidableEq

/-- The four bytes of an address, in the order in which the struct stores them. -/
def octets (addr : UInt32) : List Nat :=
  [addr.toNat % 256, addr.toNat / 256 % 256, addr.toNat / 65536 % 256, addr.toNat / 16777216]

def inet_ntoa (addr : UInt32) : List UInt8 := [46].intercalate ((octets addr).map decimal)

/-- A number up to 255, without leading zeros. -/
def isOctet (part : List UInt8) : Bool :=
  part ≠ [] && part.all isDigit && (part.head? ≠ some 48 || part.length = 1) && valueOf part ≤ 255

/-- inet_pton, for AF_INET. -/
def inet_pton (text : List UInt8) : Option UInt32 :=
  match text.splitOn 46 with
  | [a, b, c, d] =>
    if [a, b, c, d].all isOctet then
      some (UInt32.ofNat
        (valueOf a + 256 * valueOf b + 65536 * valueOf c + 16777216 * valueOf d))
    else none
  | _ => none

/-- ntohs, on a little-endian machine. -/
def ntohs (port : UInt16) : Nat := port.toNat % 256 * 256 + port.toNat / 256

/-- What the server has of itself behind `init`, and what its socket is bound to. -/
structure Listening where
  address_ : List UInt8
  port_ : Nat
  socket_address_ : SockaddrIn
  deriving DecidableEq

namespace Server

def PORT_RANGE_LO : Nat := 10000

def PORT_RANGE_HI : Nat := 10100

/-- There is no answer where it reads through a NULL. -/
def is_good_interface (ifap : Ifaddrs) : Option Bool :=
  if ifap.ifa_flags &&& IFF_LOOPBACK ≠ 0 then some false
  else ifap.ifa_addr.map fun ifa_addr => if ifa_addr.sa_family ≠ AF_INET then false else true

/-- The entry at which the loop of the constructor breaks; none where it ends without one, or where
    the process dies of a NULL (that of an empty list is one). -/
def chosen : List Ifaddrs → Option Ifaddrs
  | [] => none
  | ifap :: ifa_next =>
    match is_good_interface ifap with
    | none => none
    | some true => some ifap
    | some false => chosen ifa_next

/-- The `address_` that the constructor chooses; without one it exits. The chosen entry is behind
    freeifaddrs by then, and `freed` is the address that is found in it. -/
def address (ifap : List Ifaddrs) (freed : Ifaddrs → UInt32) : Option (List UInt8) :=
  (chosen ifap).map fun ifap => inet_ntoa (freed ifap)

/-- `*addr` and `port_` behind a success; `bind` is what the operating system grants. -/
def get_port_and_bind (sockfd : Int) (addr : SockaddrIn) (bind : SockaddrIn → Bool) :
    Option (SockaddrIn × Nat) :=
  if sockfd < 1 then none
  else if addr.sin_port ≠ 0 then none
  else
    ((List.range' PORT_RANGE_LO (PORT_RANGE_HI + 1 - PORT_RANGE_LO)).find? fun p =>
      bind { addr with sin_port := Rcs.htons p }).map fun p =>
        ({ addr with sin_port := Rcs.htons p }, ntohs (Rcs.htons p))

/-- The constructor and `init`, where the call of `socket` returns `sock`; every failure is an
    exit. -/
def startServer (ifap : List Ifaddrs) (freed : Ifaddrs → UInt32) (sock : Int)
    (bind : SockaddrIn → Bool) : Option Listening := do
  let address_ ← address ifap freed
  if sock = -1 then none
  else
    let sin_addr ← inet_pton address_
    let (socket_address_, port_) ← get_port_and_bind sock ⟨sin_addr, 0⟩ bind
    some ⟨address_, port_, socket_address_⟩

/-- What freeifaddrs has freed still holds the addresses, as with an allocator that leaves alone
    what nobody has asked for since. -/
def Intact (ifap : List Ifaddrs) (freed : Ifaddrs → UInt32) : Prop :=
  ∀ ifa ∈ ifap, ∀ ifa_addr, ifa.ifa_addr = some ifa_addr → freed ifa = ifa_addr.sin_addr

end Server

/-- What the server prints; `main` ends the line. -/
def Listening.get_client_connection_string (l : Listening) : List UInt8 :=
  l.address_ ++ 32 :: decimal l.port_

/-! ## 2. The arguments of a client -/

structure Addrinfo where
  ai_family : Nat
  ai_addr : SockaddrIn
  deriving DecidableEq

/-- The result of getaddrinfo, and its list. -/
abbrev GetAddrInfo := List UInt8 → List UInt8 → Int × List Addrinfo

/-- The start of `set_host_info`, up to the memcpy, or its exit. -/
def lookupHost (getaddrinfo : GetAddrInfo) (host_address host_port : List UInt8) :
    Option SockaddrIn :=
  let (result, lookup_head) := getaddrinfo host_address host_port
  if result < 0 then none
  else (lookup_head.find? fun lookup => lookup.ai_family = AF_INET).map Addrinfo.ai_addr

/-- The `host_addr_` that requests are sent to. -/
def UDPClient.set_host_info (getaddrinfo : GetAddrInfo) (host_address host_port : List UInt8) :
    Option SockaddrIn :=
  (lookupHost getaddrinfo host_address host_port).map fun host_addr_ =>
    { host_addr_ with sin_port := Rcs.htons (atoi host_port).toUInt32.toUInt16.toNat }

/-- The `host_addr_` that is connected to: the port is the one that getaddrinfo has found. -/
def TCPClient.set_host_info (getaddrinfo : GetAddrInfo) (host_address host_port : List UInt8) :
    Option SockaddrIn := lookupHost getaddrinfo host_address host_port

/-- What getaddrinfo does with an address and a port that are written as numbers: it looks nothing
    up, and its first entry is for them. -/
def NumericHosts (getaddrinfo : GetAddrInfo) : Prop :=
  ∀ host addr p, inet_pton host = some addr → p < 65536 → ∃ rest,
    getaddrinfo host (decimal p) = (0, ⟨AF_INET, ⟨addr, Rcs.htons p⟩⟩ :: rest)

/-! ## 3. A client finds the server -/

section Texts

theorem isOctet_decimal : ∀ n < 256, isOctet (decimal n) = true := by decide +kernel

theorem not_mem_decimal {c : UInt8} (hc : isDigit c = false) (n : Nat) : c ∉ decimal n := by
  intro hmem
  rw [decimal_digits n c hmem] at hc
  cases hc

/-- An address that was written is read back. -/
theorem inet_pton_ntoa (addr : UInt32) : inet_pton (inet_ntoa addr) = some addr := by
  have hsplit : (inet_ntoa addr).splitOn 46 = (octets addr).map decimal := by
    refine List.splitOn_intercalate 46 (fun part hpart => ?_) (List.cons_ne_nil _ _)
    obtain ⟨n, _, rfl⟩ := List.mem_map.mp hpart
    exact not_mem_decimal rfl n
  have hlt := addr.toNat_lt
  have hoctets : ((octets addr).map decimal).all isOctet = true := by
    rw [List.all_map]
    refine List.all_eq_true.mpr fun n hn => isOctet_decimal n ?_
    simp only [octets, List.mem_cons, List.not_mem_nil, or_false] at hn
    omega
  unfold inet_pton
  rw [hsplit]
  simp only [octets, List.map_cons, List.map_nil] at hoctets ⊢
  rw [if_pos hoctets]
  simp only [valueOf_decimal]
  refine congrArg some ?_
  refine (congrArg UInt32.ofNat ?_).trans addr.ofNat_toNat
  omega

theorem ntohs_htons {p : Nat} (hp : p < 65536) : ntohs (Rcs.htons p) = p := by
  have hlt : p % 256 * 256 + p / 256 % 256 < 65536 := by omega
  have hnat : (Rcs.htons p).toNat = p % 256 * 256 + p / 256 % 256 := by
    rw [Rcs.htons, UInt16.toNat_ofNat', Nat.mod_eq_of_lt hlt]
  have hlow : (p % 256 * 256 + p / 256 % 256) % 256 = p / 256 := by omega
  have hhigh : (p % 256 * 256 + p / 256 % 256) / 256 = p % 256 := by omega
  rw [ntohs, hnat, hlow, hhigh, Nat.mul_comm, Nat.div_add_mod]

/-- A port that was written is read back. -/
theorem atoi_port {p : Nat} (hp : p < 65536) :
    (atoi (decimal p)).toUInt32.toUInt16.toNat = p := by
  have hint : (Int32.ofNat p).toInt = p := Int32.toInt_ofNat_of_lt (by omega)
  have hatoi := atoi_decimal (n := Int32.ofNat p) (by omega)
  rw [hint, Int.toNat_natCast] at hatoi
  rw [hatoi, Int32.toUInt32_ofNat', UInt32.toUInt16_ofNat', UInt16.toNat_ofNat',
    Nat.mod_eq_of_lt hp]

end Texts

section Found

variable {ifap : List Ifaddrs} {freed : Ifaddrs → UInt32} {sock : Int}
  {bind : SockaddrIn → Bool} {l : Listening} {getaddrinfo : GetAddrInfo}

/-- The chosen interface is no loopback, and has an IPv4 address. -/
theorem chosen_good {ifa : Ifaddrs} (h : Server.chosen ifap = some ifa) :
    ifa ∈ ifap ∧ ifa.ifa_flags &&& IFF_LOOPBACK = 0 ∧
      ∃ ifa_addr, ifa.ifa_addr = some ifa_addr ∧ ifa_addr.sa_family = AF_INET := by
  induction ifap with
  | nil => cases h
  | cons ifap ifa_next ih =>
    unfold Server.chosen at h
    split at h
    · cases h
    next hgood =>
      obtain rfl := Option.some.inj h
      unfold Server.is_good_interface at hgood
      split_ifs at hgood with hflags
      · cases hgood
      · obtain ⟨ifa_addr, haddr, hfamily⟩ := Option.map_eq_some_iff.mp hgood
        split_ifs at hfamily with hinet
        exact ⟨List.mem_cons_self, not_not.mp hflags, ifa_addr, haddr, not_not.mp hinet⟩
    · obtain ⟨hmem, hrest⟩ := ih h
      exact ⟨List.mem_cons_of_mem _ hmem, hrest⟩

theorem get_port_and_bind_iff {addr bound : SockaddrIn} {port : Nat} (haddr : addr.sin_port = 0) :
    Server.get_port_and_bind sock addr bind = some (bound, port) ↔
      1 ≤ sock ∧ Server.PORT_RANGE_LO ≤ port ∧ port ≤ Server.PORT_RANGE_HI ∧
      bind { addr with sin_port := Rcs.htons port } = true ∧
      (∀ q, Server.PORT_RANGE_LO ≤ q → q < port →
        bind { addr with sin_port := Rcs.htons q } = false) ∧
      bound = { addr with sin_port := Rcs.htons port } := by
  unfold Server.get_port_and_bind
  by_cases hsock : sock < 1
  · rw [if_pos hsock]
    exact iff_of_false (fun h => by cases h) fun h => by omega
  · rw [if_neg hsock, if_neg (not_not.mpr haddr)]
    simp only [Option.map_eq_some_iff, List.find?_range'_eq_some, List.mem_range'_1,
      Prod.mk.injEq]
    unfold Server.PORT_RANGE_LO Server.PORT_RANGE_HI
    constructor
    · rintro ⟨p, ⟨hbind, ⟨hlo, hhi⟩, hleast⟩, rfl, hport⟩
      rw [ntohs_htons (by omega)] at hport
      subst hport
      exact ⟨by omega, hlo, by omega, hbind, fun q hq hlt => by simpa using hleast q hq hlt, rfl⟩
    · rintro ⟨_, hlo, hhi, hbind, hleast, rfl⟩
      exact ⟨port, ⟨hbind, ⟨hlo, by omega⟩, fun q hq hlt => by simpa using hleast q hq hlt⟩, rfl,
        ntohs_htons (by omega)⟩

/-- The server starts if and only if it has a good interface and gets a port; it takes the first
    interface that is good, and the first port that it gets. -/
theorem startServer_iff : Server.startServer ifap freed sock bind = some l ↔
    ∃ ifa p, Server.chosen ifap = some ifa ∧ 1 ≤ sock ∧
      Server.PORT_RANGE_LO ≤ p ∧ p ≤ Server.PORT_RANGE_HI ∧
      bind ⟨freed ifa, Rcs.htons p⟩ = true ∧
      (∀ q, Server.PORT_RANGE_LO ≤ q → q < p → bind ⟨freed ifa, Rcs.htons q⟩ = false) ∧
      l = ⟨inet_ntoa (freed ifa), p, ⟨freed ifa, Rcs.htons p⟩⟩ := by
  unfold Server.startServer Server.address
  cases hifa : Server.chosen ifap with
  | none => simp
  | some ifa =>
    simp only [Option.map_some, Option.bind_eq_bind, Option.bind_some, inet_pton_ntoa,
      Option.ite_none_left_eq_some, Option.bind_eq_some_iff]
    constructor
    · rintro ⟨_, ⟨bound, port⟩, hbound, hl⟩
      obtain ⟨hsock, hlo, hhi, hbind, hleast, rfl⟩ := (get_port_and_bind_iff rfl).mp hbound
      exact ⟨ifa, port, rfl, hsock, hlo, hhi, hbind, hleast, (Option.some.inj hl).symm⟩
    · rintro ⟨ifa', port, hifa', hsock, hlo, hhi, hbind, hleast, rfl⟩
      obtain rfl := Option.some.inj hifa'
      exact ⟨by omega, _, (get_port_and_bind_iff rfl).mpr
        ⟨hsock, hlo, hhi, hbind, hleast, rfl⟩, rfl⟩

/-- No blank is in an address. -/
theorem blank_not_mem_ntoa (addr : UInt32) : 32 ∉ inet_ntoa addr := by
  have hdecimal := not_mem_decimal (c := 32) rfl
  intro hmem
  simp only [inet_ntoa, octets, List.map_cons, List.map_nil, List.intercalate_cons_cons,
    List.intercalate_singleton, List.mem_append, List.mem_singleton, hdecimal] at hmem
  exact absurd hmem (by decide)

/-- The line that the server prints has two words. -/
theorem words_connection (addr : UInt32) (port : Nat) (bound : SockaddrIn) :
    ((Listening.mk (inet_ntoa addr) port bound).get_client_connection_string).splitOn 32 =
      [inet_ntoa addr, decimal port] := by
  have hline : (Listening.mk (inet_ntoa addr) port bound).get_client_connection_string =
      [32].intercalate [inet_ntoa addr, decimal port] := by
    rw [List.intercalate_cons_cons, List.intercalate_singleton, List.append_assoc]
    rfl
  rw [hline]
  refine List.splitOn_intercalate 32 (fun word hword => ?_) (List.cons_ne_nil _ _)
  rcases List.mem_pair.mp hword with rfl | rfl
  · exact blank_not_mem_ntoa addr
  · exact not_mem_decimal rfl port

/-- Wherever the server has started, and the entry that it has chosen was intact: its socket is
    bound to the least port of its range that it could get, at the address of an interface of this
    machine that is no loopback; and a client that is given the two words of the line that the
    server prints comes to that address. -/
theorem server_found (hnumeric : NumericHosts getaddrinfo) (hintact : Server.Intact ifap freed)
    (h : Server.startServer ifap freed sock bind = some l) :
    Server.PORT_RANGE_LO ≤ l.port_ ∧ l.port_ ≤ Server.PORT_RANGE_HI ∧
    l.socket_address_.sin_port = Rcs.htons l.port_ ∧ bind l.socket_address_ = true ∧
    (∀ q, Server.PORT_RANGE_LO ≤ q → q < l.port_ →
      bind { l.socket_address_ with sin_port := Rcs.htons q } = false) ∧
    (∃ ifa ∈ ifap, ifa.ifa_flags &&& IFF_LOOPBACK = 0 ∧
      ifa.ifa_addr = some ⟨AF_INET, l.socket_address_.sin_addr⟩) ∧
    ∃ host_address host_port,
      l.get_client_connection_string.splitOn 32 = [host_address, host_port] ∧
      UDPClient.set_host_info getaddrinfo host_address host_port = some l.socket_address_ ∧
      TCPClient.set_host_info getaddrinfo host_address host_port = some l.socket_address_ := by
  obtain ⟨ifa, p, hifa, _, hlo, hhi, hbind, hleast, rfl⟩ := startServer_iff.mp h
  have hp : p < 65536 := hhi.trans_lt (by decide)
  refine ⟨hlo, hhi, rfl, hbind, hleast, ?_, inet_ntoa (freed ifa), decimal p, ?_, ?_⟩
  · obtain ⟨hmem, hflags, ⟨sa_family, sin_addr⟩, haddr, rfl⟩ := chosen_good hifa
    have hfreed : freed ifa = sin_addr := hintact ifa hmem _ haddr
    exact ⟨ifa, hmem, hflags, hfreed ▸ haddr⟩
  · exact words_connection _ _ _
  · obtain ⟨rest, hlookup⟩ := hnumeric (inet_ntoa (freed ifa)) (freed ifa) p
      (inet_pton_ntoa _) hp
    have hhost : lookupHost getaddrinfo (inet_ntoa (freed ifa)) (decimal p) =
        some ⟨freed ifa, Rcs.htons p⟩ := by
      rw [lookupHost, hlookup]
      rfl
    refine ⟨?_, hhost⟩
    rw [UDPClient.set_host_info, hhost, Option.map_some, atoi_port hp]

end Found

/-- A getaddrinfo that knows no names; it has one entry for each type of socket. -/
def numericOnly : GetAddrInfo := fun host_address host_port =>
  match inet_pton host_address with
  | some addr => (0, List.replicate 3 ⟨AF_INET, ⟨addr, Rcs.htons (valueOf host_port)⟩⟩)
  | none => (-2, [])

theorem numericHosts_numericOnly : NumericHosts numericOnly := fun host addr p haddr _ => by
  rw [numericOnly, haddr]
  exact ⟨List.replicate 2 ⟨AF_INET, ⟨addr, Rcs.htons p⟩⟩, by rw [valueOf_decimal]; rfl⟩

/-- Of these, the third is good; the loop does not come to the one without an address. -/
def fourInterfaces : List Ifaddrs :=
  [⟨IFF_LOOPBACK, some ⟨AF_INET, 16777343⟩⟩, ⟨0, some ⟨10, 0⟩⟩, ⟨0, some ⟨AF_INET, 50462986⟩⟩,
    ⟨0, none⟩]

def leftAlone (ifa : Ifaddrs) : UInt32 := (ifa.ifa_addr.map IfAddr.sin_addr).getD 0

theorem intact_leftAlone (ifap : List Ifaddrs) : Server.Intact ifap leftAlone := by
  intro ifa _ ifa_addr haddr
  rw [leftAlone, haddr]
  rfl

/-- A server behind a loopback and an IPv6 interface, whose first port is taken. -/
theorem server_found_second : ∃ l,
    Server.startServer fourInterfaces leftAlone 3 (fun addr => addr.sin_port ≠ Rcs.htons 10000) =
      some l ∧
    l.get_client_connection_string = textBytes "10.1.2.3 10001" ∧
    Server.PORT_RANGE_LO ≤ l.port_ ∧ l.port_ ≤ Server.PORT_RANGE_HI ∧
    l.socket_address_.sin_port = Rcs.htons l.port_ ∧
    ∃ host_address host_port,
      l.get_client_connection_string.splitOn 32 = [host_address, host_port] ∧
      UDPClient.set_host_info numericOnly host_address host_port = some l.socket_address_ ∧
      TCPClient.set_host_info numericOnly host_address host_port = some l.socket_address_ := by
  have hstart : Server.startServer fourInterfaces leftAlone 3
      (fun addr => addr.sin_port ≠ Rcs.htons 10000) =
        some ⟨textBytes "10.1.2.3", 10001, ⟨50462986, Rcs.htons 10001⟩⟩ := by
    decide +kernel
  obtain ⟨hlo, hhi, hport, _, _, _, hclients⟩ :=
    server_found numericHosts_numericOnly (intact_leftAlone _) hstart
  exact ⟨_, hstart, by decide +kernel, hlo, hhi, hport, hclients⟩

/-! ## 4. The clients of the UDP server -/

/-- Where the datagrams come from. -/
def sources (is : List Incoming) : List SockaddrIn :=
  is.filterMap fun i => match i with
    | .datagram _ source_addr => some source_addr
    | .error => none

section Numbers

variable {s s' : UdpServer} {src : SockaddrIn} {i : Incoming} {is : List Incoming}

theorem find_client_eq (src : SockaddrIn) (clients : List SockaddrIn) (i : Nat) :
    UdpServer.find_client src clients i =
      if src ∈ clients then some (i + clients.idxOf src) else none := by
  induction clients generalizing i with
  | nil => rfl
  | cons client_addr clients ih =>
    have hsame : (client_addr.sin_port = src.sin_port ∧ client_addr.sin_addr = src.sin_addr) ↔
        client_addr = src := by
      cases client_addr
      cases src
      rw [SockaddrIn.mk.injEq, and_comm]
    unfold UdpServer.find_client
    by_cases he : client_addr = src
    · subst he
      rw [if_pos (hsame.mpr rfl), if_pos List.mem_cons_self, List.idxOf_cons_self,
        Nat.add_zero]
    · have hmem : src ∈ client_addr :: clients ↔ src ∈ clients :=
        List.mem_cons.trans (or_iff_right (Ne.symm he))
      rw [if_neg (mt hsame.mp he), ih]
      simp only [hmem, List.idxOf_cons_ne _ he, Nat.succ_eq_add_one, Nat.add_assoc, Nat.add_comm 1]

/-- The number of a client is its place in the table; a new one is put at the end. -/
theorem get_client_num_eq (s : UdpServer) (src : SockaddrIn) :
    s.get_client_num src = (s.clients_.idxOf src,
      { s with clients_ := if src ∈ s.clients_ then s.clients_ else s.clients_ ++ [src] }) := by
  unfold UdpServer.get_client_num
  rw [find_client_eq]
  by_cases hmem : src ∈ s.clients_
  · simp only [if_pos hmem, Nat.zero_add]
  · simp only [if_neg hmem, List.idxOf_of_notMem hmem]

/-- The table behind some sources. -/
def enrolled (clients srcs : List SockaddrIn) : List SockaddrIn :=
  srcs.foldl (fun clients src => if src ∈ clients then clients else clients ++ [src]) clients

theorem enrolled_eq (srcs : List SockaddrIn) {clients : List SockaddrIn}
    (h : clients.eraseDups = clients) :
    enrolled clients srcs = (clients ++ srcs).eraseDups := by
  induction srcs generalizing clients with
  | nil => rw [List.append_nil, h, enrolled, List.foldl_nil]
  | cons src srcs ih =>
    rw [enrolled, List.foldl_cons]
    by_cases hmem : src ∈ clients
    · rw [if_pos hmem]
      refine (ih h).trans ?_
      rw [List.eraseDups_append, List.eraseDups_append, List.cons_removeAll,
        if_neg (by simpa using hmem)]
    · have hnew : (clients ++ [src]).eraseDups = clients ++ [src] := by
        rw [List.eraseDups_append, h, List.cons_removeAll, if_pos (by simpa using hmem)]
        rfl
      rw [if_neg hmem]
      refine (ih hnew).trans ?_
      rw [List.append_assoc, List.singleton_append]

/-- Nobody is struck off. -/
theorem prefix_enrolled (clients srcs : List SockaddrIn) : clients <+: enrolled clients srcs := by
  induction srcs generalizing clients with
  | nil => exact List.prefix_rfl
  | cons src srcs ih =>
    refine List.IsPrefix.trans ?_ (ih _)
    dsimp only
    split
    · exact List.prefix_rfl
    · exact List.prefix_append _ _

theorem step_clients (h : s.step i = some s') :
    s'.clients_ = enrolled s.clients_ (sources [i]) := by
  unfold UdpServer.step at h
  split at h
  · cases i with
    | error =>
      cases h
      rfl
    | datagram bytes src =>
      rw [← Option.some.inj h]
      show ((s.recvfrom bytes).get_client_num src).2.clients_ = _
      rw [get_client_num_eq]
      rfl
  · cases h

theorem run_clients (h : Run UdpServer.step (fun _ _ => True) s is s') :
    s'.clients_ = enrolled s.clients_ (sources is) := by
  induction h with
  | nil => rfl
  | @cons s s1 s2 i is _ hstep _ ih =>
    rw [ih, step_clients hstep, enrolled, enrolled, ← List.foldl_append]
    exact congrArg (fun srcs => enrolled s.clients_ srcs) (List.filterMap_append ..).symm

/-- In every run, the table of the server holds every client that has written to it once, in the
    order in which they wrote first. A client that writes has its place there for a number, and
    whatever happens it keeps this number. -/
theorem client_numbers {groups_ : Groups} {memory : List UInt8}
    (h : Run UdpServer.step (fun _ _ => True) (.init groups_ memory) is s) :
    s.clients_ = (sources is).eraseDups ∧
    (∀ src, (s.get_client_num src).1 = (sources is).eraseDups.idxOf src) ∧
    ∀ is' s', Run UdpServer.step (fun _ _ => True) s is' s' → ∀ src ∈ sources is,
      (s'.get_client_num src).1 = (s.get_client_num src).1 := by
  have hclients : s.clients_ = (sources is).eraseDups :=
    (run_clients h).trans (enrolled_eq (sources is) rfl)
  refine ⟨hclients, fun src => ?_, fun is' s' h' src hsrc => ?_⟩
  · rw [get_client_num_eq, hclients]
  · have hpre : s.clients_ <+: s'.clients_ := by
      rw [run_clients h']
      exact prefix_enrolled _ _
    rw [get_client_num_eq, get_client_num_eq]
    refine (hpre.idxOf_eq_of_mem ?_).symm
    rw [hclients, List.mem_eraseDups]
    exact hsrc

end Numbers

/-- Two clients; the first one ends its session, and is remembered. -/
theorem client_numbers_two : ∃ s, Run UdpServer.step (fun _ _ => True)
      (.init twoNames (List.replicate UdpServer.BUFFER_SIZE 0))
      [.datagram (Message.serialize ⟨2, 0, 0⟩) ⟨7, 1⟩, .datagram [] ⟨7, 2⟩] s ∧
    s.clients_ = [⟨7, 1⟩, ⟨7, 2⟩] ∧ (s.get_client_num ⟨7, 1⟩).1 = 0 ∧
    (s.get_client_num ⟨8, 1⟩).1 = 2 := by
  have hrun : Run UdpServer.step (fun _ _ => True)
      (.init twoNames (List.replicate UdpServer.BUFFER_SIZE 0))
      [.datagram (Message.serialize ⟨2, 0, 0⟩) ⟨7, 1⟩, .datagram [] ⟨7, 2⟩] _ :=
    .cons trivial rfl (.cons trivial rfl (.nil _))
  obtain ⟨htable, hnumber, _⟩ := client_numbers hrun
  exact ⟨_, hrun, htable.trans (by decide), (hnumber _).trans (by decide),
    (hnumber _).trans (by decide)⟩

end Ece358.GroupServer
