import GamePack.Dictionary
import GamePack.Text.Blank
import GamePack.Text.Quoted
import GamePack.Disk
import GamePack.Error
import GamePack.Encoding
import GamePack.Registry
import GamePack.Magic
import GamePack.Diagnostic
import GamePack.Container.Stored
import GamePack.Sprite.Preview
import GamePack.FieldValue
import GamePack.Summary
import GamePack.Png.Image
import GamePack.Decimal.Binary64
import GamePack.Schema.Loading
import GamePack.Compiler
import GamePack.Discovery
import GamePack.Main
import GamePack.Check
import GamePack.Yaml.Entries
import GamePack.Proofs.Sprite.Fidelity
import GamePack.Proofs.Container.Calls
import GamePack.Proofs.Container.Cursor
import GamePack.Proofs.Compilation.Conflicts
import GamePack.Proofs.Compilation.Listing
import GamePack.Proofs.Conversion.Deduplication
import GamePack.Proofs.Delimiting
import GamePack.Proofs.Compilation.Origins
import GamePack.Proofs.Compilation.LastBindings
import GamePack.Proofs.Command.Stopping
import GamePack.Proofs.Schema.WellFormed
import GamePack.Proofs.Conversion.Translations
import GamePack.Proofs.Schema.Keys
import GamePack.Proofs.Sprite.Steps
import GamePack.Proofs.Numeric.Reading
import GamePack.Proofs.BitSet.Words
import GamePack.Proofs.Sprite.Drawing
import GamePack.Proofs.Sprite.Words
import GamePack.Proofs.Sprite.Tiling
import GamePack.Proofs.Conversion.Grids
import GamePack.Proofs.Conversion.Appending
import GamePack.Proofs.Schema.Runs
import GamePack.Proofs.BoundNames
import GamePack.Proofs.Conversion.Repeating
import GamePack.Proofs.Conversion.Reports
import GamePack.Proofs.Compilation.Reports
import GamePack.Proofs.Registry
import GamePack.Proofs.Schema.Order
import GamePack.Proofs.Schema.Symbols
import GamePack.Proofs.Discovery.Location
import GamePack.Proofs.Exclusion
import GamePack.Proofs.Sprite.Preview
import GamePack.Proofs.Png.Unpacking
import GamePack.Proofs.Sprite.Extent
import GamePack.Proofs.Sprite.Maximal
import GamePack.Proofs.Sprite.Extent
import GamePack.Proofs.Sprite.Scanning
