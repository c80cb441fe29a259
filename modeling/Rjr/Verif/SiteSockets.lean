import Rjr.Site.WsNode
import Rjr.Verif.SiteCodec

/-!
# Sockets of the websocket node of the browser

The node keeps a flag for its socket. The flag is set when a socket opens and never reset, so it
tells the truth only until the current socket closes or is replaced. Up to then, what is sent goes
to an open socket, and the table of requests, which is sent whole when a socket opens, makes no
request go out twice on one socket.
-/

namespace Rjr.Verif.SiteSockets

open Site Site.JRMessage Site.WsNode

/-! ## What is required -/

/-- A call of `send`: the request, the socket and the state of the socket. -/
def sent? : Call → Option (Nat × Nat × SocketState)
  | .send request socket state => some (request, socket, state)
  | _ => none

/-- The calls of `send`, oldest first. -/
def sends (calls : List Call) : List (Nat × Nat × SocketState) := calls.filterMap sent?

/-- The flag tells whether the current socket has opened and not closed, whatever was sent was sent
on an open socket, and nothing was sent twice on one socket. -/
structure Consistent (node : WsNode) : Prop where
  /-- The flag is that of the current socket. -/
  flag : node.opened = true ↔
    ∃ socket, node.socket = some socket ∧ (node.sockets.read socket).live = true
  /-- Sockets are open when something is sent. -/
  ready : ∀ sent ∈ sends node.calls, sent.2.2 = .ready
  /-- No request is sent twice on a socket. -/
  once : ((sends node.calls).map fun sent => (sent.1, sent.2.1)).Nodup

/-- A step that does not outrun the flag: a node that is open opens no other socket, its socket
does not close, and nothing is invoked while that socket is closing, except a request that cannot
be converted and is not sent. -/
def Orderly (engine : Engine) (before : WsNode) : WsAction → Prop
  | .openSocket constructs =>
    before.opening = true ∨ constructs = false ∨ before.opened = false
  | .invoke _ args => before.opened = false ∨
      (∃ socket, before.socket = some socket ∧ before.sockets.read socket = .ready) ∨
      ∃ thrown, convertParams engine (prepareArgs args).2.1 = .error thrown
  | .socketClosed socket =>
    ¬(before.socket = some socket ∧ (before.sockets.read socket).live = true)
  | _ => True

/-! ## The invariant -/

/-- What keeps the node consistent. -/
structure Tracked (node : WsNode) : Prop extends Consistent node where
  /-- The table is registered. -/
  registered : Registered node
  /-- A connecting socket is the current one, and the node is opening. -/
  pending : ∀ socket, node.sockets.read socket = .connecting →
    node.socket = some socket ∧ node.opening = true
  /-- The current socket exists. -/
  current : ∀ socket, node.socket = some socket → socket < node.sockets.next
  /-- Nothing was sent on a socket that is connecting, or that does not exist. -/
  sentSockets : ∀ sent ∈ sends node.calls,
    sent.2.1 < node.sockets.next ∧ node.sockets.read sent.2.1 ≠ .connecting
  /-- What was sent exists. -/
  sentRequests : ∀ sent ∈ sends node.calls, sent.1 < node.requests.next

/-- A new node has no socket. -/
theorem tracked_new (nodeId : Json) : Tracked { nodeId := nodeId } where
  flag := ⟨nofun, nofun⟩
  ready := nofun
  once := List.nodup_nil
  registered := nofun
  pending := nofun
  current := nofun
  sentSockets := nofun
  sentRequests := nofun

/-- The calls of `send`, in two parts. -/
@[simp]
theorem sends_append (calls others : List Call) :
    sends (calls ++ others) = sends calls ++ sends others := List.filterMap_append

section Sending

variable {engine : Engine} {native : NativeJson} {client : Client} {node : WsNode} {socket : Nat}

variable (native node) in
/-- A request that can be converted is sent on the current socket. -/
theorem sends_send_ok (request : Nat) {params : List Json}
    (converted : convertParams engine (node.requests.read request).params = .ok params)
    (current : node.socket = some socket) :
    sends (send engine native node request) =
      [(request, socket, node.sockets.read socket)] := by
  have written : toJson engine native
      { node.requests.read request with headers := node.headers } = .ok (native.stringify
        (.obj (JRMessage.members { node.requests.read request with headers := node.headers }
          params).entries)) := by
    rw [toJson, converted]
    rfl
  rw [send, written, current]
  change sends (_ :: if _ then _ else _) = _
  split <;> rfl

/-- A request that cannot be converted is not sent. -/
theorem sends_send_error {request : Nat} {thrown : Thrown}
    (failed : convertParams engine (node.requests.read request).params = .error thrown) :
    sends (send engine native node request) = [] := by
  have unwritten : toJson engine native
      { node.requests.read request with headers := node.headers } = .error thrown := by
    rw [toJson, failed]
    rfl
  rw [send, unwritten]
  rfl

variable (engine native node) in
/-- A request is sent on the current socket, or not at all. -/
theorem sends_send (request : Nat) (current : node.socket = some socket) :
    sends (send engine native node request) = [] ∨
      sends (send engine native node request) =
        [(request, socket, node.sockets.read socket)] := by
  cases converted : convertParams engine (node.requests.read request).params with
  | error thrown => exact .inl (sends_send_error converted)
  | ok params => exact .inr (sends_send_ok native node request converted current)

variable (engine native node) in
/-- The queue is sent on the current socket, each request at most once. -/
theorem sends_sendAll (current : node.socket = some socket) (requests : List Nat) :
    ∃ sent : List Nat, sent.Sublist requests ∧ sends (sendAll engine native node requests) =
      sent.map fun request => (request, socket, node.sockets.read socket) := by
  induction requests with
  | nil => exact ⟨[], .slnil, rfl⟩
  | cons request rest ih =>
    obtain ⟨later, inside, following⟩ := ih
    rw [sendAll]
    rcases sends_send engine native node request current with none | one
    · split
      · exact ⟨[], List.nil_sublist _, none⟩
      · refine ⟨later, inside.cons request, ?_⟩
        rw [sends_append, none, following]
        rfl
    · split
      · exact ⟨[request], (List.nil_sublist rest).cons_cons request, one⟩
      · refine ⟨request :: later, inside.cons_cons request, ?_⟩
        rw [sends_append, one, following]
        rfl

end Sending

section Preserved

variable {engine : Engine} {native : NativeJson} {client : Client} {node next : WsNode}

/-- A step that sends nothing keeps the invariant when the flag, the connecting sockets and the
current socket come out right and no socket starts to connect again. -/
theorem tracked_of_silent (tracked : Tracked node) (silent : sends next.calls = sends node.calls)
    (registered : Registered next) (requests : node.requests.next ≤ next.requests.next)
    (flag : next.opened = true ↔
      ∃ socket, next.socket = some socket ∧ (next.sockets.read socket).live = true)
    (pending : ∀ socket, next.sockets.read socket = .connecting →
      next.socket = some socket ∧ next.opening = true)
    (current : ∀ socket, next.socket = some socket → socket < next.sockets.next)
    (sockets : ∀ socket < node.sockets.next, node.sockets.read socket ≠ .connecting →
      socket < next.sockets.next ∧ next.sockets.read socket ≠ .connecting) : Tracked next := by
  refine ⟨⟨flag, ?_, ?_⟩, registered, pending, current, ?_, ?_⟩
  · rw [silent]
    exact tracked.ready
  · rw [silent]
    exact tracked.once
  · intro sent inside
    rw [silent] at inside
    obtain ⟨known, settled⟩ := tracked.sentSockets sent inside
    exact sockets sent.2.1 known settled
  · intro sent inside
    rw [silent] at inside
    exact Nat.lt_of_lt_of_le (tracked.sentRequests sent inside) requests

/-- Requests that are sent on an open socket, for the first time on it, keep the invariant. -/
theorem tracked_record (tracked : Tracked node) {calls : List Call} {socket : Nat}
    {requests : List Nat}
    (sending : sends calls = requests.map fun request => (request, socket, .ready))
    (known : socket < node.sockets.next) (settled : node.sockets.read socket ≠ .connecting)
    (made : ∀ request ∈ requests, request < node.requests.next) (distinct : requests.Nodup)
    (fresh : ∀ request ∈ requests, ∀ sent ∈ sends node.calls,
      (sent.1, sent.2.1) ≠ (request, socket)) :
    Tracked (node.record calls) := by
  have recorded : sends (node.record calls).calls =
      sends node.calls ++ requests.map fun request => (request, socket, .ready) := by
    rw [record_calls, sends_append, sending]
  have either : ∀ sent ∈ sends (node.record calls).calls,
      sent ∈ sends node.calls ∨ ∃ request ∈ requests, (request, socket, .ready) = sent := by
    intro sent inside
    rw [recorded, List.mem_append, List.mem_map] at inside
    exact inside
  refine ⟨⟨tracked.flag, ?_, ?_⟩, tracked.registered.record calls, tracked.pending,
    tracked.current, ?_, ?_⟩
  · intro sent inside
    rcases either sent inside with before | ⟨request, -, rfl⟩
    · exact tracked.ready sent before
    · rfl
  · rw [recorded, List.map_append, List.map_map]
    apply List.Nodup.append tracked.once
    · apply distinct.map
      intro left right same
      exact congrArg Prod.fst same
    · intro pair before after
      obtain ⟨sent, listed, rfl⟩ := List.mem_map.mp before
      obtain ⟨request, queued, same⟩ := List.mem_map.mp after
      exact fresh request queued sent listed same.symm
  · intro sent inside
    rcases either sent inside with before | ⟨request, -, rfl⟩
    · exact tracked.sentSockets sent before
    · exact ⟨known, settled⟩
  · intro sent inside
    rcases either sent inside with before | ⟨request, queued, rfl⟩
    · exact tracked.sentRequests sent before
    · exact made request queued

/-- Calls that send nothing keep the invariant. -/
theorem tracked_quiet (tracked : Tracked node) {calls : List Call} (silent : sends calls = []) :
    Tracked (node.record calls) := by
  refine tracked_of_silent tracked ?_ (tracked.registered.record calls) (Nat.le_refl _)
    tracked.flag tracked.pending tracked.current (fun _ known settled => ⟨known, settled⟩)
  rw [record_calls, sends_append, silent, List.append_nil]

/-- A request that is stored keeps the invariant. -/
theorem tracked_store (tracked : Tracked node) (bits : Fin 8 → Fin 0x10000)
    (args : List Argument) : Tracked (node.store bits args) :=
  tracked_of_silent tracked rfl (tracked.registered.store bits args) (Nat.le_succ _) tracked.flag
    tracked.pending tracked.current (fun _ known settled => ⟨known, settled⟩)

/-- The requests of the table are different ones. -/
theorem queue_nodup (registered : Registered node) :
    (node.messages.entries.map Prod.snd).Nodup := by
  apply List.Nodup.map_on _ (List.Nodup.of_map Prod.fst node.messages.distinct)
  rintro ⟨id, request⟩ first ⟨other, same⟩ second rfl
  have own := (registered id request ((node.messages.get?_eq_some_iff id request).mpr first)).2
  have again := (registered other request
    ((node.messages.get?_eq_some_iff other request).mpr second)).2
  rw [own] at again
  cases again
  rfl

/-- A socket that changes its state, other than to connecting, keeps the invariant when the flag
comes out right. -/
theorem tracked_write (tracked : Tracked node) {socket : Nat} (state : SocketState)
    (settles : state ≠ .connecting) (sockets : next.sockets = node.sockets.write socket state)
    (silent : sends next.calls = sends node.calls) (messages : next.messages = node.messages)
    (requests : next.requests = node.requests) (current : next.socket = node.socket)
    (opening : ∀ other, other ≠ socket → node.sockets.read other = .connecting →
      next.opening = true)
    (flag : next.opened = true ↔
      ∃ socket, next.socket = some socket ∧ (next.sockets.read socket).live = true) :
    Tracked next := by
  refine tracked_of_silent tracked silent (tracked.registered.of_eq messages requests)
    (by rw [requests]) flag ?_ ?_ ?_
  · intro other stillConnecting
    rw [sockets, Heap.read_write] at stillConnecting
    by_cases same : other = socket
    · rw [if_pos same] at stillConnecting
      exact absurd stillConnecting settles
    · rw [if_neg same] at stillConnecting
      rw [current]
      exact ⟨(tracked.pending other stillConnecting).1, opening other same stillConnecting⟩
  · intro other held
    rw [current] at held
    rw [sockets]
    exact tracked.current other held
  · intro other known settled
    rw [sockets, Heap.read_write]
    refine ⟨known, ?_⟩
    by_cases same : other = socket
    · rw [if_pos same]
      exact settles
    · rw [if_neg same]
      exact settled

/-- A socket that opens is the current one, and sends the table. -/
theorem tracked_opened (tracked : Tracked node) {socket : Nat}
    (connecting : node.sockets.read socket = .connecting) :
    Tracked (socketOpen engine native client (node.setSocket socket .ready)) := by
  obtain ⟨current, -⟩ := tracked.pending socket connecting
  let mid : WsNode := { node.setSocket socket .ready with opened := true, opening := false }
  have ready : mid.sockets.read socket = .ready := Heap.read_write_same _ _ _
  have middle : Tracked mid := by
    refine tracked_write tracked .ready nofun rfl rfl rfl rfl rfl ?_ ?_
    · intro other differs stillConnecting
      have also := (tracked.pending other stillConnecting).1
      rw [current] at also
      exact absurd (Option.some.inj also).symm differs
    · refine iff_of_true rfl ⟨socket, current, ?_⟩
      rw [ready]
      rfl
  obtain ⟨sent, among, sending⟩ := sends_sendAll engine native mid current
    (mid.messages.entries.map Prod.snd)
  have queued : ∀ request ∈ sent, request < node.requests.next := by
    intro request inside
    obtain ⟨entry, listed, rfl⟩ := List.mem_map.mp (among.subset inside)
    exact (tracked.registered entry.1 entry.2
      ((node.messages.get?_eq_some_iff entry.1 entry.2).mpr listed)).1
  rw [ready] at sending
  refine tracked_record middle ?_ (tracked.current socket current) ?_ queued
    ((queue_nodup tracked.registered).sublist among) ?_
  · rw [sends_append, sending]
    split <;> simp [sends, sent?]
  · rw [ready]
    exact nofun
  · intro request inside before listed same
    have settled := (tracked.sentSockets before listed).2
    have sameSocket : before.2.1 = socket := congrArg Prod.snd same
    rw [sameSocket] at settled
    exact settled connecting

/-- The parameters of a request that was stored. -/
theorem store_params (bits : Fin 8 → Fin 0x10000) (args : List Argument) :
    ((node.store bits args).requests.read node.requests.next).params = (prepareArgs args).2.1 :=
  congrArg JRMessage.params (Heap.read_alloc node.requests _)

/-- A request that is invoked in an orderly way is sent on an open socket, or not at all. -/
theorem tracked_invoked (tracked : Tracked node) (bits : Fin 8 → Fin 0x10000)
    (args : List Argument) (orderly : Orderly engine node (.invoke bits args)) :
    Tracked ((node.store bits args).record
      (if node.opened then send engine native (node.store bits args) node.requests.next
        else [])) := by
  have stored := tracked_store tracked bits args
  rcases orderly with shut | ⟨socket, current, ready⟩ | ⟨thrown, failed⟩
  · rw [shut]
    exact tracked_quiet stored rfl
  · cases node.opened with
    | false => exact tracked_quiet stored rfl
    | true =>
      rw [if_pos rfl]
      rcases sends_send engine native (node.store bits args) node.requests.next current
        with none | one
      · exact tracked_quiet stored none
      · have sending : sends (send engine native (node.store bits args) node.requests.next) =
            [node.requests.next].map fun request => (request, socket, .ready) := by
          rw [one]
          exact congrArg (fun state => [(node.requests.next, socket, state)]) ready
        refine tracked_record stored sending (tracked.current socket current) ?_ ?_
          (List.nodup_singleton _) ?_
        · intro connecting
          rw [show (node.store bits args).sockets.read socket = .ready from ready] at connecting
          cases connecting
        · intro request inside
          rw [List.mem_singleton.mp inside]
          exact Nat.lt_succ_self _
        · intro request inside before listed same
          have known := tracked.sentRequests before listed
          have sameRequest : before.1 = request := congrArg Prod.fst same
          rw [sameRequest, List.mem_singleton.mp inside] at known
          exact Nat.lt_irrefl _ known
  · apply tracked_quiet stored
    split
    · exact sends_send_error (by rw [store_params]; exact failed)
    · rfl

variable (client node) in
/-- Handling a response sends nothing. -/
theorem sends_matched (request : Nat) (message : JRMessage) :
    sends (node.handleResponse request message ++ reportError client message ++
      passOn client message) = [] := by
  have handler : sends (node.handleResponse request message) = [] := by
    unfold handleResponse
    split <;> rfl
  have report : sends (reportError client message) = [] := by
    unfold reportError
    split <;> rfl
  have passed : sends (passOn client message) = [] := by
    unfold passOn
    split <;> rfl
  rw [sends_append, sends_append, handler, report, passed]
  rfl

/-- An entry that is taken out of the table keeps the invariant. -/
theorem tracked_forget (tracked : Tracked node) (name : String) : Tracked (node.forget name) :=
  tracked_of_silent tracked rfl (tracked.registered.forget name) (Nat.le_refl _) tracked.flag
    tracked.pending tracked.current (fun _ known settled => ⟨known, settled⟩)

/-- A new socket keeps the invariant of a node that is neither open nor opening. -/
theorem tracked_constructed (tracked : Tracked node) (idle : node.opening = false)
    (shut : node.opened = false) :
    Tracked { node with
      opening := true, socket := some node.sockets.next,
      sockets := (node.sockets.alloc .connecting).2 } := by
  refine tracked_of_silent tracked rfl (tracked.registered.of_eq rfl rfl) (Nat.le_refl _) ?_ ?_ ?_
    ?_
  · refine iff_of_false (by rw [shut]; exact Bool.false_ne_true) ?_
    rintro ⟨_, ⟨⟩, live⟩
    rw [Heap.read_alloc_eq, if_pos rfl] at live
    cases live
  · intro socket connecting
    rw [Heap.read_alloc_eq] at connecting
    by_cases same : socket = node.sockets.next
    · exact ⟨congrArg some same.symm, rfl⟩
    · rw [if_neg same] at connecting
      have opening := (tracked.pending socket connecting).2
      rw [idle] at opening
      cases opening
  · rintro _ ⟨⟩
    exact Nat.lt_succ_self _
  · intro socket known settled
    rw [Heap.read_alloc_eq, if_neg (Nat.ne_of_lt known)]
    exact ⟨Nat.lt_succ_of_lt known, settled⟩

/-- `close` keeps the invariant: a socket that is closing has not closed. -/
theorem tracked_closing (tracked : Tracked node) {socket : Nat}
    (current : node.socket = some socket) :
    Tracked (node.setSocket socket (node.sockets.read socket).close) := by
  have settles : ∀ state : SocketState, state.close ≠ .connecting := by
    intro state
    cases state <;> exact nofun
  have sameLive : ∀ state : SocketState, state.close.live = state.live := by
    intro state
    cases state <;> rfl
  refine tracked_write tracked _ (settles _) rfl rfl rfl rfl rfl
    (fun other _ connecting => (tracked.pending other connecting).2) (tracked.flag.trans ?_)
  apply exists_congr
  intro other
  apply and_congr_right
  intro held
  rw [current] at held
  cases held
  change _ ↔ ((node.sockets.write socket _).read socket).live = true
  rw [Heap.read_write_same, sameLive]

/-- A socket that closes keeps the invariant unless it is the current one and had opened. -/
theorem tracked_closed (tracked : Tracked node) {socket : Nat}
    (orderly : ¬(node.socket = some socket ∧ (node.sockets.read socket).live = true)) :
    Tracked (node.setSocket socket .closed) := by
  refine tracked_write tracked .closed nofun rfl rfl rfl rfl rfl
    (fun other _ connecting => (tracked.pending other connecting).2) (tracked.flag.trans ?_)
  apply exists_congr
  intro other
  apply and_congr_right
  intro held
  change _ ↔ ((node.sockets.write socket .closed).read other).live = true
  rw [Heap.read_write]
  by_cases same : other = socket
  · rw [if_pos same, same]
    refine iff_of_false ?_ nofun
    intro live
    exact orderly ⟨same ▸ held, live⟩
  · rw [if_neg same]

/-- An orderly step keeps the invariant. -/
theorem tracked_step {action : WsAction} (tracked : Tracked node)
    (stepped : (machine engine native client).step node action = some next)
    (orderly : Orderly engine node action) : Tracked next := by
  cases step_cases stepped with
  | openIgnored => exact tracked
  | openConstructed idle =>
    rcases orderly with opening | refused | shut
    · rw [idle] at opening
      cases opening
    · cases refused
    · exact tracked_constructed tracked idle shut
  | openRefused idle =>
    have opening : Tracked { node with opening := true } :=
      tracked_of_silent tracked rfl (tracked.registered.of_eq rfl rfl) (Nat.le_refl _) tracked.flag
        (fun socket connecting => ⟨(tracked.pending socket connecting).1, rfl⟩) tracked.current
        (fun _ known settled => ⟨known, settled⟩)
    exact tracked_quiet opening rfl
  | invoked bits args => exact tracked_invoked tracked bits args orderly
  | closeIgnored => exact tracked
  | closeCalled socket current => exact tracked_closing tracked current
  | opened socket connecting => exact tracked_opened tracked connecting
  | closed socket notClosed =>
    apply tracked_quiet (tracked_closed tracked orderly)
    split <;> rfl
  | failed socket =>
    apply tracked_quiet tracked
    split <;> rfl
  | unparsed => exact tracked_quiet tracked rfl
  | notified socket json message =>
    apply tracked_quiet tracked
    unfold passOn
    split <;> rfl
  | unmatched => exact tracked_quiet tracked rfl
  | matched socket json message request =>
    exact tracked_quiet (tracked_forget tracked _) (sends_matched client node request message)

/-! ## Steps after which the node is consistent -/

/-- A step after which the node is consistent was orderly. -/
theorem orderly_of_consistent {action : WsAction} (tracked : Tracked node)
    (stepped : (machine engine native client).step node action = some next)
    (consistent : Consistent next) : Orderly engine node action := by
  cases step_cases stepped with
  | openIgnored constructs opening => exact .inl opening
  | openRefused => exact .inr (.inl rfl)
  | openConstructed idle =>
    refine .inr (.inr ?_)
    rw [Bool.eq_false_iff]
    intro opened
    obtain ⟨_, ⟨⟩, live⟩ := consistent.flag.mp opened
    rw [Heap.read_alloc_eq, if_pos rfl] at live
    cases live
  | invoked bits args =>
    cases opened : node.opened with
    | false => exact .inl opened
    | true =>
      refine .inr ?_
      cases converted : convertParams engine (prepareArgs args).2.1 with
      | error thrown => exact .inr ⟨thrown, rfl⟩
      | ok params =>
        obtain ⟨socket, current, -⟩ := tracked.flag.mp opened
        refine .inl ⟨socket, current, ?_⟩
        have sending := sends_send_ok native (node.store bits args) node.requests.next
          (by rw [store_params]; exact converted) current
        have listed : (node.requests.next, socket, node.sockets.read socket) ∈
            sends ((node.store bits args).record
              (if node.opened then send engine native (node.store bits args) node.requests.next
                else [])).calls := by
          rw [record_calls, sends_append, if_pos opened, sending]
          exact List.mem_append_right _ (List.mem_singleton.mpr rfl)
        exact consistent.ready _ listed
  | closed socket notClosed =>
    rintro ⟨current, live⟩
    have opened := tracked.flag.mpr ⟨socket, current, live⟩
    obtain ⟨other, held, stillLive⟩ := consistent.flag.mp opened
    have same : other = socket := Option.some.inj (held.symm.trans current)
    change ((node.sockets.write socket .closed).read other).live = true at stillLive
    rw [same, Heap.read_write_same] at stillLive
    cases stillLive
  | _ => trivial

end Preserved

/-- **When the flag can be trusted.** In every run of a node, with `open`, `invoke` and `close`
called and sockets opening, closing and receiving in any order, the following hold after every
step exactly when every step is orderly: the flag is set while the current socket has opened and
not closed and at no other time, `send` was called on open sockets only, and no request was sent
twice on a socket. -/
theorem sockets_consistent_iff (engine : Engine) (native : NativeJson) (client : Client)
    (nodeId : Json) (actions : List WsAction) :
    (machine engine native client).Along (fun _ _ after => Consistent after)
        { nodeId := nodeId } actions ↔
      (machine engine native client).Along (fun before action _ => Orderly engine before action)
        { nodeId := nodeId } actions := by
  apply Machine.along_iff (machine engine native client) Tracked
  · intro node action next tracked stepped
    constructor
    · exact orderly_of_consistent tracked stepped
    · exact fun orderly => (tracked_step tracked stepped orderly).toConsistent
  · exact fun node action next tracked stepped orderly => tracked_step tracked stepped orderly
  · exact tracked_new nodeId

/-- A client that registered nothing. -/
def silentClient : Client := ⟨false, false, false, false⟩

/-- The flag stays set when the socket closes. -/
theorem flag_stays_set :
    ¬(machine SiteCodec.plainEngine SiteCodec.textJson silentClient).Along
      (fun _ _ after => Consistent after) {}
      [.openSocket true, .socketOpened 0, .socketClosed 0] := by
  intro along
  have opening := along _ rfl
  have ready := opening.2 _ rfl
  have gone := ready.2 _ rfl
  obtain ⟨_, ⟨⟩, live⟩ := gone.1.flag.mp rfl
  cases live

end Rjr.Verif.SiteSockets
