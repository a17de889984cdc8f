import Retrial.Main
import Retrial.Program
import Retrial.Proofs.Additions
import Retrial.Proofs.Artifact
import Retrial.Proofs.BudgetLaw
import Retrial.Proofs.ClassificationTable
import Retrial.Proofs.Config.Layering
import Retrial.Proofs.Confirmation
import Retrial.Proofs.CrashBudget
import Retrial.Proofs.ExistingLog
import Retrial.Proofs.Grammar
import Retrial.Proofs.Interruption
import Retrial.Proofs.Ledger.Accounts
import Retrial.Proofs.LifeCycle
import Retrial.Proofs.Likeness
import Retrial.Proofs.Log.Acceptance
import Retrial.Proofs.Log.Faithful
import Retrial.Proofs.Log.Fatal
import Retrial.Proofs.Log.Skipping
import Retrial.Proofs.Log.Truncation
import Retrial.Proofs.LogLocation
import Retrial.Proofs.Options.Reading
import Retrial.Proofs.Recovery
import Retrial.Proofs.Timeouts
import Retrial.Proofs.Transcript.Segments
import Retrial.Proofs.Transcript.Styles
import Retrial.Rehearsal
