import Keybindings.Main
import Keybindings.Proofs.Dictionary
import Keybindings.Proofs.Json.Feed
import Keybindings.Proofs.Json.Locality
import Keybindings.Proofs.Json.Moves
import Keybindings.Proofs.Json.Nesting
import Keybindings.Proofs.Json.Layout
import Keybindings.Proofs.Json.Values
import Keybindings.Proofs.Json.Printing
import Keybindings.Proofs.Entry
import Keybindings.Proofs.Text.Positions
import Keybindings.Proofs.Extent
import Keybindings.Proofs.Deletion
import Keybindings.Proofs.Fixing
import Keybindings.Proofs.Removal
import Keybindings.Proofs.Progress
import Keybindings.Proofs.Cleaning
import Keybindings.Proofs.Publication
import Keybindings.Proofs.Files
import Keybindings.Proofs.Writing
import Keybindings.Proofs.Freshness
import Keybindings.Proofs.Separation
import Keybindings.Proofs.Aggregation
import Keybindings.Proofs.BulkClean
import Keybindings.Proofs.Monotonicity
import Keybindings.Proofs.StaleCleaning
import Keybindings.Proofs.Preview
import Keybindings.Proofs.Shape
import Keybindings.Proofs.Staging
import Keybindings.Proofs.Target
import Keybindings.Proofs.Search
import Keybindings.Proofs.Delimiters
import Keybindings.Proofs.Isolation
