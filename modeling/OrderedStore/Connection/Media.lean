import OrderedStore.Connection
import OrderedStore.Storage.Medium

/-!
# Connections on media

Connections that share media are kept with a mere handle to their logs. `onMedia` joins handle and
media for the time of one operation.

* `openMemory`, `openShared`, `openDirectory`: the three ways to open a connection;
* `onMedia`: one operation of a connection.
-/

namespace OrderedStore

/-- A connection that is kept apart from its media. -/
abbrev DetachedConnection := Connection LogHandle

namespace Connection

/-- A connection together with the media its log is on. -/
def attach (c : DetachedConnection) (media : Media) : Connection Medium := c.mapLog (⟨·, media⟩)

/-- A connection apart from its media. -/
def detach (c : Connection Medium) : DetachedConnection := c.mapLog (·.handle)

/-- Runs one operation of a connection on its media. -/
def onMedia {α : Type} (c : DetachedConnection) (media : Media) (op : Connection Medium → α × Connection Medium) :
    α × DetachedConnection × Media :=
  let (result, c) := op (c.attach media)
  (result, c.detach, c.log.media)

/-- Opens a connection on a handle. -/
def openHandle (path : Option String) (options : EngineOptions) (handle : LogHandle) (media : Media) :
    Except EngineError DetachedConnection × Media :=
  match openOn path options (Medium.mk handle media) with
  | .error (e, log) => (.error e, log.media)
  | .ok c => (.ok c.detach, c.log.media)

/-- Opens a connection on a new log in memory. -/
def openMemory (options : EngineOptions) (media : Media) : Except EngineError DetachedConnection × Media :=
  openHandle none options (.memory .empty) media

/-- Opens a connection on a shared log. -/
def openShared (number : Nat) (options : EngineOptions) (media : Media) :
    Except EngineError DetachedConnection × Media :=
  openHandle none options (.shared number) media

/-- Opens a connection on the store directory at a path. -/
def openDirectory (path : String) (options : EngineOptions) (media : Media) :
    Except EngineError DetachedConnection × Media :=
  match options.validate with
  | .error e => (.error e, media)
  | .ok () =>
    match Directory.openAt path options media.disk with
    | (.error e, disk) => (.error e, { media with disk })
    | (.ok dir, disk) =>
      match FileLog.openAt (Directory.logPath path) disk with
      | (.error e, disk) => (.error e, { media with disk := dir.close disk })
      | (.ok log, disk) => openHandle (some path) options (.directory dir log) { media with disk }

end Connection

end OrderedStore
