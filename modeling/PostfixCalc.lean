import PostfixCalc.Journal
import PostfixCalc.Proofs.Acceptance
import PostfixCalc.Proofs.Compensation
import PostfixCalc.Proofs.Grammar
import PostfixCalc.Proofs.LastAnswer
import PostfixCalc.Proofs.Postorder
import PostfixCalc.Proofs.Rendering
import PostfixCalc.Proofs.Sessions
import PostfixCalc.Screen
import PostfixCalc.Proofs.Actions
import PostfixCalc.Proofs.History
import PostfixCalc.Proofs.Spelling
import PostfixCalc.Proofs.Traces
import PostfixCalc.Proofs.Canonical
import PostfixCalc.Proofs.WholeNumbers
import PostfixCalc.Proofs.Brackets
import PostfixCalc.Proofs.Diagnosis
import PostfixCalc.Proofs.Concatenation
import PostfixCalc.Proofs.Order
import PostfixCalc.Proofs.DecimalPoints
import PostfixCalc.Proofs.Pending
import PostfixCalc.Proofs.Refusals
import PostfixCalc.Proofs.Typing
