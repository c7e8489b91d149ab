import ContentionChart.Program.LogFilter
import ContentionChart.Program.Run
import ContentionChart.Main
import ContentionChart.Proofs.Grouping
import ContentionChart.Proofs.Accepted
import ContentionChart.Proofs.Reading
import ContentionChart.Proofs.Masking
import ContentionChart.Proofs.RowOrder
import ContentionChart.Proofs.SameData
import ContentionChart.Proofs.ColumnOrder
import ContentionChart.Proofs.Lines
import ContentionChart.Proofs.GarbageLines
import ContentionChart.Proofs.Accounting
import ContentionChart.Proofs.FileWriting
import ContentionChart.Proofs.Sessions
import ContentionChart.Proofs.DataFailures
import ContentionChart.Proofs.FirstFailure
import ContentionChart.Proofs.Encoding
import ContentionChart.Proofs.Inserting
import ContentionChart.Proofs.RoundedNumbers
import ContentionChart.Proofs.LayoutRanges
import ContentionChart.Proofs.PixelOrder
import ContentionChart.Proofs.Doubles
import ContentionChart.Proofs.Margins
import ContentionChart.Proofs.NumberTexts
import ContentionChart.Proofs.Rendering
import ContentionChart.Proofs.ScaleTicks
import ContentionChart.Proofs.ThreadAxis
import ContentionChart.Proofs.RoundSteps
import ContentionChart.Proofs.ExactScales
import ContentionChart.Proofs.SymmetricPlaces
import ContentionChart.Proofs.Labels
import ContentionChart.Proofs.TickLabels
import ContentionChart.Proofs.SeriesGrowth
import ContentionChart.Proofs.LabelNumbers
import ContentionChart.Proofs.OptionTexts
import ContentionChart.Proofs.MatchedArguments
import ContentionChart.Proofs.NumeralGrammar
import ContentionChart.Proofs.FigureSizes
import ContentionChart.Proofs.ImageSizes
import ContentionChart.Proofs.DrawnLines
import ContentionChart.Proofs.PathComponents
import ContentionChart.Proofs.FollowedPaths
import ContentionChart.Proofs.MadeDirectories
import ContentionChart.Proofs.OutputDirectories
import ContentionChart.Proofs.NearestDoubles
import ContentionChart.Proofs.ThreadCountTexts
import ContentionChart.Proofs.Diagnostics
import ContentionChart.Proofs.LayoutSteps
import ContentionChart.Proofs.ImageFiles
import ContentionChart.Proofs.OriginTicks
