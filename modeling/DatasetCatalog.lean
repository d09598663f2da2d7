import DatasetCatalog.Arff.Writer
import DatasetCatalog.Catalog.ListingFrame
import DatasetCatalog.Main
import DatasetCatalog.Proofs.Arff.Token
import DatasetCatalog.Proofs.Arff.Row
import DatasetCatalog.Proofs.Arff.Header
import DatasetCatalog.Proofs.Arff.RoundTrip
import DatasetCatalog.Proofs.Arff.Accepted
import DatasetCatalog.Proofs.Number.Rounding
import DatasetCatalog.Proofs.Number.Decimal
import DatasetCatalog.Proofs.Number.Numeral
import DatasetCatalog.Proofs.Number.Written
import DatasetCatalog.Proofs.Number.Whole
import DatasetCatalog.Proofs.Number.Order
import DatasetCatalog.Proofs.Number.Value
import DatasetCatalog.Proofs.Number.NotANumber
import DatasetCatalog.Proofs.Number.Spelled
import DatasetCatalog.Proofs.Coercion.Build
import DatasetCatalog.Proofs.Coercion.CellNumber
import DatasetCatalog.Proofs.Coercion.Levels
import DatasetCatalog.Proofs.Coercion.Rederive
import DatasetCatalog.Proofs.Coercion.Column
import DatasetCatalog.Proofs.Table.Basic
import DatasetCatalog.Proofs.Coercion.Table
import DatasetCatalog.Proofs.Coercion.Stable
import DatasetCatalog.Proofs.Coercion.Total
import DatasetCatalog.Proofs.Coercion.Meaning
import DatasetCatalog.Proofs.Coercion.NumericOrder
import DatasetCatalog.Proofs.Coercion.LevelCount
import DatasetCatalog.Proofs.Coercion.Refused
import DatasetCatalog.Proofs.Coercion.ColumnLocal
import DatasetCatalog.Proofs.Coercion.RowOrder
import DatasetCatalog.Proofs.Filter.Path
import DatasetCatalog.Proofs.Filter.Setting
import DatasetCatalog.Proofs.Filter.Normal
import DatasetCatalog.Proofs.Filter.Sensible
import DatasetCatalog.Proofs.Cache.Flight
import DatasetCatalog.Proofs.Cache.SingleFlight
import DatasetCatalog.Proofs.Path
import DatasetCatalog.Proofs.Disk
import DatasetCatalog.Proofs.World
import DatasetCatalog.Proofs.Triple
import DatasetCatalog.Proofs.Json
import DatasetCatalog.Proofs.Cache.Marker
import DatasetCatalog.Proofs.Cache.Files
import DatasetCatalog.Proofs.Cache.Calls
import DatasetCatalog.Proofs.Cache.Listing
import DatasetCatalog.Proofs.Cache.Consistency
import DatasetCatalog.Proofs.Catalog.Address
import DatasetCatalog.Proofs.Catalog.FilterChoice
import DatasetCatalog.Proofs.Catalog.Documented
import DatasetCatalog.Proofs.Descent
import DatasetCatalog.Proofs.Keyed
import DatasetCatalog.Proofs.Load.Verified
import DatasetCatalog.Proofs.Load.Cached
import DatasetCatalog.Proofs.Catalog.RemoteError
import DatasetCatalog.Proofs.Catalog.Trim
import DatasetCatalog.Proofs.Catalog.Lenient
import DatasetCatalog.Proofs.Catalog.NormalForm
import DatasetCatalog.Proofs.Catalog.Listing
import DatasetCatalog.Proofs.Catalog.Flattened
import DatasetCatalog.Proofs.Catalog.WholeQuality
import DatasetCatalog.Proofs.Cache.Stocked
import DatasetCatalog.Proofs.Cache.Clear
import DatasetCatalog.Proofs.Cache.Prune
import DatasetCatalog.Proofs.Arff.Place
import DatasetCatalog.Proofs.Arff.Sections
import DatasetCatalog.Proofs.Arff.Skipped
import DatasetCatalog.Proofs.Arff.FirstFault
import DatasetCatalog.Proofs.Arff.Layout
import DatasetCatalog.Proofs.Arff.Strict
import DatasetCatalog.Proofs.Arff.Quotes
import DatasetCatalog.Proofs.Arff.Splitting
import DatasetCatalog.Proofs.Arff.Items
import DatasetCatalog.Proofs.Arff.Sparse
import DatasetCatalog.Proofs.Ending
import DatasetCatalog.Proofs.Cache.Errors
import DatasetCatalog.Proofs.Cache.Edited
import DatasetCatalog.Proofs.Cache.Failed
import DatasetCatalog.Proofs.Coercion.Frames
import DatasetCatalog.Proofs.Settings.Layers
import DatasetCatalog.Proofs.Cli.Clean
