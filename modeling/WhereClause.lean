import WhereClause.Path.Name
import WhereClause.Scope.ParamMap
import WhereClause.Ty.Age
import WhereClause.Ty.Parts
import WhereClause.Report.Basic
import WhereClause.Proofs.Equality.Partition
import WhereClause.Proofs.Equality.Components
import WhereClause.Proofs.Equality.Covering
import WhereClause.Proofs.Equality.Arrivals
import WhereClause.Proofs.Equality.Placeholders
import WhereClause.Proofs.Inference.Blaming
import WhereClause.Proofs.Inference.Concluding
import WhereClause.Proofs.Inference.Ending
import WhereClause.Proofs.Inference.Keeping
import WhereClause.Proofs.Inference.Speaking
import WhereClause.Proofs.Renaming.Equivariance
import WhereClause.Proofs.Representative.Least
import WhereClause.Proofs.Representative.Parametric
import WhereClause.Proofs.Representative.Enduring
import WhereClause.Proofs.Representative.Recording
import WhereClause.Proofs.Representative.Afresh
import WhereClause.Proofs.Representative.Restoring
import WhereClause.Proofs.Representative.Winning
import WhereClause.Proofs.Representative.Strings
import WhereClause.Proofs.Representative.Mixing
import WhereClause.Proofs.Equality.Clashing
import WhereClause.Proofs.Equality.Interleaving
import WhereClause.Proofs.Representative.Bounding
import WhereClause.Proofs.Relevance.Widening
import WhereClause.Proofs.Renaming.Freshening
import WhereClause.Proofs.Scope.Scoping
import WhereClause.Proofs.Scope.Identifying
import WhereClause.Proofs.Path.Spelling
import WhereClause.Proofs.ConstraintSet
import WhereClause.Proofs.Substitution.Composing
