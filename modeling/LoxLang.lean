import LoxLang.Main
import LoxLang.Tree.Equality
import LoxLang.Tree.Forms
import LoxLang.Proofs.Scanning
import LoxLang.Proofs.Acceptance
import LoxLang.Proofs.RoundTrip
import LoxLang.Proofs.EvaluatorAgreement
import LoxLang.Proofs.Scopes
import LoxLang.Proofs.Isolation
import LoxLang.Proofs.Exits
import LoxLang.Proofs.HostErrors
import LoxLang.Proofs.GlobalNames
import LoxLang.Proofs.Continuation
import LoxLang.Proofs.Layout
import LoxLang.Proofs.Holes
import LoxLang.Proofs.Recovery
import LoxLang.Proofs.Excerpts
import LoxLang.Proofs.Offences
import LoxLang.Proofs.Histories
import LoxLang.Proofs.ShellLines
import LoxLang.Proofs.Places
import LoxLang.Proofs.ForLoops
import LoxLang.Proofs.FaultOrigins
import LoxLang.Proofs.Respelling
import LoxLang.Proofs.Interactive
import LoxLang.Proofs.Conditions
import LoxLang.Proofs.LocalRecovery
import LoxLang.Proofs.Limits
import LoxLang.Proofs.ShellCommands
import LoxLang.Proofs.Repetition
import LoxLang.Proofs.NumberLiterals
import LoxLang.Proofs.SharedFrames
