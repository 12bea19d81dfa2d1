import ReservoirPlot.Binary.Binary32
import ReservoirPlot.Binary.Binary64
import ReservoirPlot.Binary.Format
import ReservoirPlot.CommandLine
import ReservoirPlot.Compression.Basic
import ReservoirPlot.Compression.Bytes
import ReservoirPlot.Compression.Deflate
import ReservoirPlot.Compression.Expanding
import ReservoirPlot.Compression.Gzip
import ReservoirPlot.Compression.Intake
import ReservoirPlot.Compression.Lz4.Block
import ReservoirPlot.Compression.Lz4.Descriptor
import ReservoirPlot.Compression.Lz4.Reader
import ReservoirPlot.Compression.PrefixCode
import ReservoirPlot.Compression.XxHash
import ReservoirPlot.Compression.Zstd.Block
import ReservoirPlot.Compression.Zstd.FrameHeader
import ReservoirPlot.Compression.Zstd.Reader
import ReservoirPlot.Decimal.Shortest
import ReservoirPlot.Decimal.Style
import ReservoirPlot.Extension.Address
import ReservoirPlot.Extension.Core
import ReservoirPlot.Extension.Manifest
import ReservoirPlot.Files.Directory
import ReservoirPlot.Files.Path
import ReservoirPlot.Json.Basic
import ReservoirPlot.Json.Printer
import ReservoirPlot.Json.Reader
import ReservoirPlot.Json.Scan
import ReservoirPlot.Main
import ReservoirPlot.Plot.Basic
import ReservoirPlot.Plot.Catalog
import ReservoirPlot.Plot.DecodeError
import ReservoirPlot.Plot.Decoding
import ReservoirPlot.Plot.Draft
import ReservoirPlot.Plot.Header
import ReservoirPlot.Plot.Layout
import ReservoirPlot.Plot.Loading
import ReservoirPlot.Plot.Stream
import ReservoirPlot.Plot.Supply
import ReservoirPlot.Proofs.Binary.Rounding
import ReservoirPlot.Proofs.Plot.Catalog
import ReservoirPlot.Proofs.Plot.Decoding
import ReservoirPlot.Proofs.Plot.Draft
import ReservoirPlot.Proofs.Plot.File
import ReservoirPlot.Proofs.Plot.Recognition
import ReservoirPlot.Proofs.Series.Conversion
import ReservoirPlot.Proofs.Series.TimeOrder
import ReservoirPlot.Series.Basic
import ReservoirPlot.Series.Conversion
import ReservoirPlot.Series.Frame
import ReservoirPlot.Series.Json
import ReservoirPlot.Series.Keywords
import ReservoirPlot.Server.Basic
import ReservoirPlot.Server.MediaType
import ReservoirPlot.Server.PercentEncoding
import ReservoirPlot.Server.Registry
import ReservoirPlot.Server.Request
import ReservoirPlot.Server.Response
import ReservoirPlot.Server.Uuid
import ReservoirPlot.Source
import ReservoirPlot.Summary.Case
import ReservoirPlot.Summary.Date
import ReservoirPlot.Text.Blank
import ReservoirPlot.Text.Escapes
import ReservoirPlot.Text.GraphemeExtend
import ReservoirPlot.Text.Printable
import ReservoirPlot.Text.Utf8
import ReservoirPlot.Token
import ReservoirPlot.Units.Measure
import ReservoirPlot.Units.UnitSystem
import ReservoirPlot.Proofs.Summary.Case
import ReservoirPlot.Proofs.Plot.Verdict
import ReservoirPlot.Proofs.Series.TimeConflict
import ReservoirPlot.Proofs.Server.Names
import ReservoirPlot.Proofs.Server.Registry
import ReservoirPlot.Proofs.Server.Interleaving
import ReservoirPlot.Proofs.Server.Run
import ReservoirPlot.Proofs.Series.Keywords
import ReservoirPlot.Proofs.Server.Signals
import ReservoirPlot.Proofs.Plot.Items
import ReservoirPlot.Proofs.Series.Layout
import ReservoirPlot.Proofs.CommandLine.Log
import ReservoirPlot.Proofs.Series.Variables
import ReservoirPlot.Proofs.Series.Columns
import ReservoirPlot.Proofs.Binary.Patterns
import ReservoirPlot.Proofs.Binary.ReadsBack
import ReservoirPlot.Proofs.Decimal.Interval
import ReservoirPlot.Proofs.Decimal.Shortest
import ReservoirPlot.Proofs.Files.Writing
import ReservoirPlot.Proofs.Json.Numerals
import ReservoirPlot.Proofs.Json.Layout
import ReservoirPlot.Proofs.Summary.Text
import ReservoirPlot.Proofs.Server.Changes
import ReservoirPlot.Proofs.Server.Listings
import ReservoirPlot.Proofs.Server.Headers
import ReservoirPlot.Proofs.Plot.Delivery
import ReservoirPlot.Proofs.Plot.Endings
import ReservoirPlot.Proofs.Compression.Gzip
import ReservoirPlot.Proofs.Summary.Signal
import ReservoirPlot.Proofs.Server.NameSearch
import ReservoirPlot.Proofs.Text.Utf8
import ReservoirPlot.Proofs.Token
import ReservoirPlot.Proofs.Plot.Consumption
import ReservoirPlot.Proofs.Binary.Value
import ReservoirPlot.Proofs.Summary.ElapsedTime
import ReservoirPlot.Proofs.Plot.Classes
import ReservoirPlot.Proofs.Plot.Queries
import ReservoirPlot.Proofs.Binary.WholeNumbers
import ReservoirPlot.Proofs.Plot.Slices
import ReservoirPlot.Proofs.Plot.Timesteps
