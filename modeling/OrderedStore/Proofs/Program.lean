import OrderedStore.Interface
import OrderedStore.Proofs.Client

/-!
# Programs that hold their objects

What the call interface is compared with: a program that holds stores and their children itself, as clients of the
stores. It has no handles, but a list of what handles were issued for, in the order in which they were.

* `Call.request`: what a call asks for, if its arguments can be read;
* `Program.ask`: one call of a client;
* `Program.answer`, `Program.serve`: what the program replies in place of the interface;
* `Interface.replies`, `Program.replies`: whole runs.
-/

namespace OrderedStore

/-! ## Requests -/

namespace Interface

/-- What the object behind a handle is asked. -/
inductive Question where
  /-- A call of a store. -/
  | store (q : Client.Call)
  /-- A call of a child. -/
  | child (q : Client.ChildCall)
  | counters
  | isValid

namespace Question

/-- The question takes the handle out of use. -/
def retires : Question → Bool
  | store .close | child .drop | child (.batch .writeAndClose) => true
  | _ => false

/-- The reply when the handle stands for nothing of the kind. -/
def stale : Question → Reply
  | store .close | child .drop => ⟨.ok, none⟩
  | isValid => ⟨.ok, some (.flag false)⟩
  | _ => ⟨.closed, none⟩

end Question

/-- What a call asks for when its arguments have been read. -/
inductive Request where
  /-- A new store. -/
  | enroll (opening : Media → Except StoreError DetachedStore × Media)
  /-- Asks the object of a kind behind a handle. -/
  | ask (handle : Handle) (kind : Resource) (q : Question)

end Interface

/-- A place for a result, if the caller has one. -/
def Argument.place (out : Bool) (name : String) : Except CallError Unit :=
  if out then .ok () else .error (.nullPointer name)

/-- What a call asks for, or the first of its arguments that cannot be used. -/
def Call.request : Call → Except CallError Interface.Request
  | .openPath out path options => do
    Argument.place out "out_handle"
    match path with
    | none => throw (.nullPointer "path")
    | some bytes =>
      match Bytes.toText? (bytes.takeWhile (· ≠ 0)) with
      | none => throw (.invalidUtf8 "path")
      | some path => return .enroll (Store.openDirectory path (Interface.raiseOptions options))
  | .openMemory out options => do
    Argument.place out "out_handle"
    return .enroll (Store.openMemory (Interface.raiseOptions options))
  | .close handle => return .ask handle .store (.store .close)
  | .get out handle key => do
    Argument.place out "out_value"
    return .ask handle .store (.store (.get (← key.read "key")))
  | .put handle key value => do
    return .ask handle .store (.store (.put (← key.read "key") (← value.read "value")))
  | .delete handle key => return .ask handle .store (.store (.delete (← key.read "key")))
  | .stats out handle => do
    Argument.place out "out_stats"
    return .ask handle .store .counters
  | .cursorNew out handle => do
    Argument.place out "out_cursor"
    return .ask handle .store (.store .openCursor)
  | .cursorFirst handle => return .ask handle .cursor (.child (.cursor (.move .first)))
  | .cursorLast handle => return .ask handle .cursor (.child (.cursor (.move .last)))
  | .cursorSeek handle target => do
    return .ask handle .cursor (.child (.cursor (.move (.seek (← target.read "target")))))
  | .cursorNext handle => return .ask handle .cursor (.child (.cursor (.move .next)))
  | .cursorPrev handle => return .ask handle .cursor (.child (.cursor (.move .prev)))
  | .cursorValid out handle => do
    Argument.place out "out_valid"
    return .ask handle .cursor .isValid
  | .cursorKey out handle => do
    Argument.place out "out_key"
    return .ask handle .cursor (.child (.cursor .key))
  | .cursorValue out handle => do
    Argument.place out "out_value"
    return .ask handle .cursor (.child (.cursor .value))
  | .cursorClose handle => return .ask handle .cursor (.child .drop)
  | .batchNew out handle => do
    Argument.place out "out_batch"
    return .ask handle .store (.store .openBatch)
  | .batchPut handle key value => do
    return .ask handle .batch (.child (.batch (.add (.put (← key.read "key") (← value.read "value")))))
  | .batchDelete handle key => do
    return .ask handle .batch (.child (.batch (.add (.delete (← key.read "key")))))
  | .batchWrite out handle => do
    Argument.place out "out_applied"
    return .ask handle .batch (.child (.batch .write))
  | .batchWriteAndClose out handle => do
    Argument.place out "out_applied"
    return .ask handle .batch (.child (.batch .writeAndClose))
  | .batchClose handle => return .ask handle .batch (.child .drop)

/-! ## Programs -/

/-- A client of a store that is kept apart from its media. -/
abbrev DetachedClient := Client DetachedConnection Timeline.Cursor Timeline.View

namespace Client

/-- A client together with the media that its store is on. -/
def attach (c : DetachedClient) (media : Media) : Client (Connection Medium) Timeline.Cursor Timeline.View :=
  ⟨c.store.attach media, c.places⟩

/-- A client apart from the media. -/
def detach (c : Client (Connection Medium) Timeline.Cursor Timeline.View) : DetachedClient :=
  ⟨c.store.detach, c.places⟩

end Client

/-- What a handle was issued for: a store, or a child of a store, by their numbers. -/
structure Name where
  kind : Resource
  store : Nat
  child : Nat := 0
  deriving DecidableEq

/-- A program that holds stores and their children. -/
structure Program where
  media : Media
  /-- Every store ever opened, with its children. -/
  clients : List DetachedClient
  /-- What the handles were issued for, in order; handle zero for nothing, and neither one that has been closed. -/
  names : List (Option Name)

namespace Program

/-- A program that has opened no store. -/
def start (media : Media) : Program := ⟨media, [], [none]⟩

/-- What a handle stands for. -/
def name? (p : Program) (handle : Handle) : Option Name := p.names[handle.toNat]?.join

/-- What a handle stands for, if it is of a kind. -/
def find? (p : Program) (handle : Handle) (kind : Resource) : Option Name := (p.name? handle).filter (·.kind = kind)

/-- Gives the next handle to a new object. -/
def issue (p : Program) (name : Name) : Reply × Program :=
  (⟨.ok, some (.handle (.ofNat p.names.length))⟩, { p with names := p.names ++ [some name] })

/-- Takes a handle out of use. -/
def retire (p : Program) (handle : Handle) : Program := { p with names := p.names.set handle.toNat none }

/-- Asks client `m`. -/
def ask (p : Program) (m : Nat) (q : Client.Call) : Client.Reply × Program :=
  match p.clients[m]? with
  | none => (.ok .noChild, p)
  | some client =>
    let (reply, client) := (client.attach p.media).step q
    (reply, { p with media := client.store.media, clients := p.clients.set m client.detach })

/-- The kind of child that a call makes. -/
def made : Client.Call → Resource
  | .openCursor => .cursor
  | .openBatch => .batch
  | _ => .snapshot

end Program

/-- The status and the output for what a client is answered. -/
def Reply.ofCore : Client.Reply → Reply
  | .error e => ⟨.ofStoreError e, none⟩
  | .ok (.value (some value)) => ⟨.ok, some (.bytes value)⟩
  | .ok (.value none) => ⟨.notFound, some (.bytes [])⟩
  | .ok (.bytes value) => ⟨.ok, some (.bytes value)⟩
  | .ok (.applied now) => ⟨.ok, some (.flag now)⟩
  | .ok _ => ⟨.ok, none⟩

namespace Program

/-- The counters of store `m`, while it is open. -/
def counters (p : Program) (m : Nat) : Reply :=
  match p.clients[m]? with
  | some ⟨store, _⟩ => if store.isOpen then ⟨.ok, some (.counters store.counters)⟩ else ⟨.closed, none⟩
  | none => ⟨.closed, none⟩

/-- Whether a cursor is on an entry. -/
def isValid (p : Program) (m n : Nat) : Bool :=
  match p.clients[m]? with
  | some client =>
    match client.places[n]? with
    | some ⟨.cursor cursor, _⟩ => cursor.isValid (client.store.attach p.media)
    | _ => false
  | none => false

/-- What the object of a name replies. -/
def answer (p : Program) (name : Name) : Interface.Question → Reply × Program
  | .store q =>
    match p.ask name.store q with
    | (.ok (.child n), p) => p.issue ⟨made q, name.store, n⟩
    | (reply, p) => (.ofCore reply, p)
  | .child q =>
    let (reply, p) := p.ask name.store (.child name.child q)
    (.ofCore reply, p)
  | .counters => (p.counters name.store, p)
  | .isValid => (⟨.ok, some (.flag (p.isValid name.store name.child))⟩, p)

/-- The reply to a request, and what becomes of the handle. -/
def serve (p : Program) : Interface.Request → Reply × Program
  | .enroll opening =>
    match opening p.media with
    | (.error e, media) => (⟨.ofStoreError e, none⟩, { p with media })
    | (.ok store, media) =>
      ({ p with media, clients := p.clients ++ [Client.start store] }).issue ⟨.store, p.clients.length, 0⟩
  | .ask handle kind q =>
    match p.find? handle kind with
    | none => (q.stale, p)
    | some name =>
      let (reply, p) := p.answer name q
      (reply, if q.retires then p.retire handle else p)

/-- The reply to a call. A call whose arguments cannot be used does nothing. -/
def call (p : Program) (c : Call) : Reply × Program :=
  match c.request with
  | .error e => (⟨e.status, none⟩, p)
  | .ok request => p.serve request

end Program

/-! ## Runs -/

/-- The handle that a call has given out. -/
def Reply.handle? (reply : Reply) : Option Handle :=
  match reply.output with
  | some (.handle handle) => some handle
  | _ => none

namespace Interface

/-- What happens to an interface. -/
inductive Event where
  | call (c : Call)
  /-- The text of the last error is forgotten. -/
  | clear
  /-- The media change by themselves. -/
  | change (f : Media → Media)

/-- The interface after an event. -/
def next (i : Interface) : Event → Interface
  | .call c => (i.call c).2
  | .clear => i.clearLastError
  | .change f => { i with media := f i.media }

def after (i : Interface) (events : List Event) : Interface := events.foldl next i

/-- The replies to the calls among the events. -/
def replies (i : Interface) : List Event → List Reply
  | [] => []
  | .call c :: events => (i.call c).1 :: (i.next (.call c)).replies events
  | event :: events => (i.next event).replies events

/-- The handles that have been given out. -/
def issued (replies : List Reply) : List Handle := replies.filterMap Reply.handle?

end Interface

namespace Program

/-- The program after an event. -/
def next (p : Program) : Interface.Event → Program
  | .call c => (p.call c).2
  | .clear => p
  | .change f => { p with media := f p.media }

def after (p : Program) (events : List Interface.Event) : Program := events.foldl next p

/-- The replies to the calls among the events. -/
def replies (p : Program) : List Interface.Event → List Reply
  | [] => []
  | .call c :: events => (p.call c).1 :: (p.next (.call c)).replies events
  | event :: events => (p.next event).replies events

end Program

end OrderedStore
