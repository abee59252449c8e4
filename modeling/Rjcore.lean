import Rjcore.Interaction.Program
import Rjcore.Interaction.Sequence
import Rjcore.Interaction.Interleaving
import Rjcore.Interaction.Footprint
import Rjcore.Interaction.Handler
import Rjcore.Interaction.Exclusion
import Rjcore.Interaction.Serving
import Rjcore.Interaction.Locks
import Rjcore.Interaction.Atomic
import Rjcore.Interaction.Balance
import Rjcore.Interaction.Knowledge
import Rjcore.Text.CString
import Rjcore.Text.Digits
import Rjcore.Text.Words
import Rjcore.Text.Shell
import Rjcore.Text.Lexemes
import Rjcore.Files.FileSystem
import Rjcore.Binder.Interface
import Rjcore.Binder.Parcel
import Rjcore.Binder.Proxy
import Rjcore.Binder.Stub
import Rjcore.Binder.RoundTrip
import Rjcore.Binder.Requests
import Rjcore.Binder.Replies
import Rjcore.Service.Os
import Rjcore.Service.ExecuteCmd
import Rjcore.Service.RjcoreService
import Rjcore.Service.Product
import Rjcore.Service.Network
import Rjcore.Service.Dispatch
import Rjcore.Service.Methods
import Rjcore.Service.Footprint
import Rjcore.Verif.Capture
import Rjcore.Verif.StateQueries
import Rjcore.Verif.LinkModes
import Rjcore.Verif.OtaResult
import Rjcore.Verif.Commands
import Rjcore.Verif.ClientStrings
import Rjcore.Verif.AddressChecks
import Rjcore.Verif.Operands
import Rjcore.Verif.FileModes
import Rjcore.Verif.Identity
import Rjcore.Verif.Decoding
import Rjcore.Verif.ProductId
import Rjcore.Verif.SupportResolution
import Rjcore.Verif.Handles
import Rjcore.Verif.Success
import Rjcore.Verif.Bandwidth
import Rjcore.Verif.BandwidthFigure
import Rjcore.Verif.Buffers
import Rjcore.Verif.Disposition
import Rjcore.Verif.Killing
import Rjcore.Verif.Collection
import Rjcore.Verif.ArchiveName
import Rjcore.Verif.VendorSector
import Rjcore.Verif.Resolutions
import Rjcore.Verif.ListedResolutions
import Rjcore.Verif.SectorIntegrity
import Rjcore.Verif.Sessions
import Rjcore.Verif.Confinement
import Rjcore.Verif.Locks
import Rjcore.Verif.SharedDownload
import Rjcore.Verif.Exhaustion
import Rjcore.Verif.Processes
import Rjcore.Androint.Driver
import Rjcore.Androint.Adder
import Rjcore.Androint.Hal
import Rjcore.Mokoid.LedService
import Rjcore.Mokoid.Publication
import Rjcore.Mokoid.LedManager
