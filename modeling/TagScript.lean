import TagScript.Main
import TagScript.Proofs.Script.Bounds
import TagScript.Proofs.Markup.Acyclic
import TagScript.Proofs.Script.Failure
import TagScript.Proofs.Script.Operation
import TagScript.Proofs.Script.Permanence
import TagScript.Proofs.Script.ModuleCache
import TagScript.Proofs.Script.Knots
import TagScript.Proofs.Script.ModuleCall
import TagScript.Proofs.Script.Containment
import TagScript.Proofs.Script.Namespaces
import TagScript.Proofs.Expr.Faults
import TagScript.Proofs.Expr.Arguments
import TagScript.Proofs.Expr.Spans
import TagScript.Proofs.Markup.Replacement
import TagScript.Proofs.Markup.Independence
import TagScript.Proofs.Format.Csv
import TagScript.Proofs.Script.Dispatch
import TagScript.Proofs.Snapshot
import TagScript.Proofs.Locator
import TagScript.Proofs.Script.Trail
