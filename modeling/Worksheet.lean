import Worksheet.Http.Application
import Worksheet.Log.Line
import Worksheet.Log.Template
import Worksheet.Main
import Worksheet.Proofs.Category.RoundTrip
import Worksheet.Proofs.Exercise.FullMarks
import Worksheet.Proofs.Exercise.Reports
import Worksheet.Proofs.Markup.CommentLine
import Worksheet.Proofs.Recognition.RoundTrip
import Worksheet.Proofs.Table.Completion
import Worksheet.Proofs.Table.Outcome
import Worksheet.Shuffle
import Worksheet.Table.Overrides
import Worksheet.Proofs.Definitions
import Worksheet.Proofs.Association.RoundTrip
import Worksheet.Proofs.Seriation.RoundTrip
import Worksheet.Proofs.Exercise.Bounds
import Worksheet.Proofs.Exercise.ResponseShape
import Worksheet.Proofs.Service.Grading
import Worksheet.Proofs.Markup.Parts
import Worksheet.Proofs.Table.Safety
import Worksheet.Proofs.Recognition.Accounting
import Worksheet.Proofs.Table.Exclusive
import Worksheet.Proofs.Encoding.Utf8
import Worksheet.Proofs.Exercise.Adjacency
import Worksheet.Proofs.Http.ErrorBody
import Worksheet.Proofs.Exercise.LineEnds
import Worksheet.Proofs.Service.EntryPoints
import Worksheet.Proofs.Exercise.Shape
import Worksheet.Proofs.Category.Readings
import Worksheet.Proofs.Markup.OptionBrackets
import Worksheet.Proofs.Markup.Passage
import Worksheet.Proofs.Markup.Accounting
import Worksheet.Proofs.Recognition.Monotone
import Worksheet.Proofs.Recognition.Rounding
import Worksheet.Proofs.Table.Agreement
import Worksheet.Proofs.Seriation.Symmetry
import Worksheet.Proofs.Association.Verdicts
import Worksheet.Proofs.Classification.Placement
import Worksheet.Proofs.Exercise.KeyEcho
import Worksheet.Proofs.Exercise.FirstDefinition
import Worksheet.Proofs.Exercise.Labels
import Worksheet.Proofs.Table.Assignment
import Worksheet.Proofs.Recognition.Comments
import Worksheet.Proofs.Recognition.Numbering
import Worksheet.Proofs.Exercise.Conflicts
import Worksheet.Proofs.Exercise.Spelling
import Worksheet.Proofs.Shuffle
import Worksheet.Proofs.Markup.DistractorPattern
import Worksheet.Proofs.Classification.Report
import Worksheet.Proofs.Recognition.Report
import Worksheet.Proofs.Table.Report
import Worksheet.Proofs.Text.Blocks
import Worksheet.Proofs.Text.Html
import Worksheet.Proofs.Text.Hash
