import FormulaFit.Main
import FormulaFit.Proofs.Binding
import FormulaFit.Proofs.Language
import FormulaFit.Proofs.ModelRuns
import FormulaFit.Proofs.Depth
import FormulaFit.Proofs.Verification
import FormulaFit.Proofs.Safety
import FormulaFit.Proofs.RegistryRuns
import FormulaFit.Proofs.Checking
import FormulaFit.Proofs.Drawing
import FormulaFit.Proofs.Growth
import FormulaFit.Proofs.Objective
import FormulaFit.Proofs.Composition
import FormulaFit.Proofs.Centres
import FormulaFit.Proofs.Reordering
import FormulaFit.Proofs.Bookkeeping
import FormulaFit.Proofs.Interpolation
import FormulaFit.Proofs.StartingValues
import FormulaFit.Proofs.Viability
import FormulaFit.Proofs.Printing
import FormulaFit.Proofs.Preparation
import FormulaFit.Proofs.Names
import FormulaFit.Proofs.Nesting
import FormulaFit.Proofs.Warnings
import FormulaFit.Proofs.Columns
import FormulaFit.Proofs.BrokenLine
import FormulaFit.Proofs.Units
import FormulaFit.Proofs.OptionLetters
import FormulaFit.Proofs.Spacing
import FormulaFit.Proofs.Reversal
import FormulaFit.Proofs.Horner
