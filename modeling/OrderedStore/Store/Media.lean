import OrderedStore.Connection.Media
import OrderedStore.Store.Batch
import OrderedStore.Store.Snapshot

/-!
# Stores on media

Stores over the connections of this library, kept apart from the disk and the logs that they share.

* `DetachedStore`: a store without its media; `AttachedStore`: one that is joined to them;
* `Store.openMemory`, `Store.openDirectory`: the two ways to open a store;
* `Store.onMedia`: one operation of a store.
-/

namespace OrderedStore

/-- A store that is kept apart from its media. -/
abbrev DetachedStore := Store DetachedConnection Timeline.Cursor Timeline.View

/-- A store joined to its media. -/
abbrev AttachedStore := Store (Connection Medium) Timeline.Cursor Timeline.View

namespace Store

/-- A store together with the media its log is on. -/
def attach (s : DetachedStore) (media : Media) : AttachedStore := s.mapEngine (·.attach media)

/-- A store apart from its media. -/
def detach (s : AttachedStore) : DetachedStore := s.mapEngine Connection.detach

/-- The media that a store is joined to. -/
def media (s : AttachedStore) : Media := s.engine.log.media

/-- Runs one operation of a store on its media. -/
def onMedia {α : Type} (s : DetachedStore) (media : Media) (op : AttachedStore → α × AttachedStore) :
    α × DetachedStore × Media :=
  let (result, s) := op (s.attach media)
  (result, s.detach, s.media)

/-- The place that a failed opening names for a store in memory. -/
def memoryPath : String := ":memory:"

/-- Makes a store of a connection that was to be opened. -/
def ofOpening (path : Option String) (options : Options) :
    Except EngineError DetachedConnection × Media → Except StoreError DetachedStore × Media
  | (.ok c, media) => (.ok (.ofEngine path options c), media)
  | (.error e, media) => (.error (.ofOpen (path.getD memoryPath) e), media)

/-- Opens a store in memory. -/
def openMemory (options : Options) (media : Media) : Except StoreError DetachedStore × Media :=
  ofOpening none options (Connection.openMemory options.lower media)

/-- Opens the store in the directory at a path. -/
def openDirectory (path : String) (options : Options) (media : Media) : Except StoreError DetachedStore × Media :=
  ofOpening (some path) options (Connection.openDirectory path options.lower media)

end Store

end OrderedStore
