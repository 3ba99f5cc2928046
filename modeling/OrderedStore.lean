import OrderedStore.Connection.Media
import OrderedStore.Engine.Faulty
import OrderedStore.Interface
import OrderedStore.Main
import OrderedStore.Proofs.Payload
import OrderedStore.Store.Media
import OrderedStore.Store.Scan
import OrderedStore.Proofs.Frame
import OrderedStore.Proofs.Replay
import OrderedStore.Proofs.Chain
import OrderedStore.Proofs.KeyMap
import OrderedStore.Proofs.VersionMap
import OrderedStore.Proofs.Timeline
import OrderedStore.Proofs.Connection
import OrderedStore.Proofs.Pins
import OrderedStore.Proofs.Session
import OrderedStore.Proofs.Recovery
import OrderedStore.Proofs.Repair
import OrderedStore.Proofs.Crash
import OrderedStore.Proofs.Scan
import OrderedStore.Proofs.Persistence
import OrderedStore.Proofs.Compaction
import OrderedStore.Proofs.Corruption
import OrderedStore.Proofs.Settling
import OrderedStore.Proofs.Collection
import OrderedStore.Proofs.Retention
import OrderedStore.Proofs.Client
import OrderedStore.Proofs.Children
import OrderedStore.Proofs.Accounting
import OrderedStore.Proofs.Leftovers
import OrderedStore.Proofs.Stations
import OrderedStore.Proofs.Shadows
import OrderedStore.Proofs.Batches
import OrderedStore.Proofs.Listing
import OrderedStore.Proofs.Interface
import OrderedStore.Proofs.Disk
import OrderedStore.Proofs.Files
import OrderedStore.Proofs.Directory
import OrderedStore.Proofs.Separation
import OrderedStore.Proofs.Locks
import OrderedStore.Proofs.Closing
import OrderedStore.Proofs.StoreDirectory
import OrderedStore.Proofs.Serving
import OrderedStore.Proofs.Vacancy
import OrderedStore.Proofs.Opening
import OrderedStore.Proofs.Printing
import OrderedStore.Proofs.Commands
import OrderedStore.Proofs.Holdings
import OrderedStore.Proofs.Counting
import OrderedStore.Proofs.Resumption
import OrderedStore.Proofs.Folder
import OrderedStore.Proofs.Precedence
import OrderedStore.Proofs.Engine
import OrderedStore.Proofs.Contracts
import OrderedStore.Proofs.Windows
import OrderedStore.Proofs.Latest
import OrderedStore.Proofs.Protection
import OrderedStore.Proofs.Sweeping
import OrderedStore.Proofs.Texts
import OrderedStore.Proofs.Legibility
import OrderedStore.Proofs.LastError
import OrderedStore.Proofs.Navigation
import OrderedStore.Proofs.Capacity
