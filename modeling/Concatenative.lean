import Concatenative.Interactive
import Concatenative.CommandLine.Directory
import Concatenative.Main
import Concatenative.Proofs.Recursion
import Concatenative.Proofs.Reachability
import Concatenative.Proofs.Definition
import Concatenative.Proofs.Failure
import Concatenative.Proofs.Termination
import Concatenative.Proofs.Threshold
import Concatenative.Proofs.Nesting
import Concatenative.Proofs.Repetition
import Concatenative.Proofs.Text.LowerCase
import Concatenative.Proofs.Tokenization
import Concatenative.Proofs.Vocabulary
import Concatenative.Proofs.Settling
import Concatenative.Proofs.Restoration
import Concatenative.Proofs.Frame
import Concatenative.Proofs.StackEffect
import Concatenative.Proofs.Exactness
import Concatenative.Proofs.Lines
import Concatenative.Proofs.History
import Concatenative.Proofs.Dependence
import Concatenative.Proofs.Hoisting
import Concatenative.Proofs.Renaming
import Concatenative.Proofs.Text.Encoding
import Concatenative.Proofs.Cause
import Concatenative.Proofs.CommandLine.Arguments
import Concatenative.Proofs.CommandLine.Channels
import Concatenative.Proofs.Dialogue
import Concatenative.Proofs.Script
import Concatenative.Proofs.Account
import Concatenative.Proofs.Capture
import Concatenative.Proofs.LetterCase
import Concatenative.Proofs.CommandLine.Unreadable
import Concatenative.Proofs.Numerals
import Concatenative.Proofs.Compilation
import Concatenative.Proofs.Postfix
import Concatenative.Proofs.Spacing
import Concatenative.Proofs.CommandLine.Directory
import Concatenative.Proofs.Interactive
