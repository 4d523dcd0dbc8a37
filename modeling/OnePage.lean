import OnePage.Main
import OnePage.Proofs.Authenticity
import OnePage.Proofs.Indifference
import OnePage.Proofs.Segmentation
import OnePage.Proofs.Idleness
import OnePage.Proofs.Pausing
import OnePage.Proofs.Generations
import OnePage.Proofs.Reordering
import OnePage.Proofs.Resumption
import OnePage.Proofs.Handoff
import OnePage.Proofs.Stopping
import OnePage.Proofs.Statistics
import OnePage.Proofs.RequestGrammar
import OnePage.Proofs.Arguments
import OnePage.Proofs.ConfigGrammar
import OnePage.Proofs.Waiting
import OnePage.Proofs.Numerals
import OnePage.Proofs.WatchTable
import OnePage.Proofs.Scripts
import OnePage.Proofs.ListenerCreation
import OnePage.Proofs.Inheritance
import OnePage.Proofs.Escapes
import OnePage.Proofs.Dates
