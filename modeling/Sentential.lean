import Sentential.Main
import Sentential.Proofs.Analysis.Detection
import Sentential.Proofs.Analysis.Diagnostics
import Sentential.Proofs.Karnaugh.Grouping
import Sentential.Proofs.Karnaugh.Minimization
import Sentential.Proofs.Karnaugh.Strength
import Sentential.Proofs.Parse.Acceptance
import Sentential.Proofs.Parse.Completeness
import Sentential.Proofs.Token.Partition
import Sentential.Proofs.Token.Viability
import Sentential.Proofs.Tableau.CounterExample
import Sentential.Proofs.Analysis.Agreement
import Sentential.Proofs.Table.Columns
import Sentential.Proofs.Table.Editing
import Sentential.Proofs.Analysis.Marks
import Sentential.Proofs.Analysis.Settings
import Sentential.Proofs.Analysis.Respelling
import Sentential.Proofs.CommandLine.Labels
import Sentential.Proofs.Analysis.Revision
import Sentential.Proofs.Label.NormalForm
import Sentential.Proofs.Label.Reading
import Sentential.Proofs.Parse.Refusal
import Sentential.Proofs.Parse.Descent
import Sentential.Proofs.Formula.Memo
import Sentential.Proofs.Table.Shortcut
import Sentential.Proofs.Tableau.Log
import Sentential.Proofs.Table.Export
import Sentential.Proofs.Tableau.Nesting
import Sentential.Proofs.Tableau.Status
import Sentential.Proofs.Table.Identity
import Sentential.Proofs.Decimal.Numeral
import Sentential.Proofs.Json.Reading
import Sentential.Proofs.History.ReadBack
