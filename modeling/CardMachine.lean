import CardMachine.Host
import CardMachine.Main
import CardMachine.Proofs.Addressing
import CardMachine.Proofs.Arithmetic
import CardMachine.Proofs.Blocks
import CardMachine.Proofs.Boundary
import CardMachine.Proofs.Branch
import CardMachine.Proofs.Effects
import CardMachine.Proofs.ErrorOrder
import CardMachine.Proofs.Grammar
import CardMachine.Proofs.Listing
import CardMachine.Proofs.Location
import CardMachine.Proofs.Lockstep
import CardMachine.Proofs.Numeral
import CardMachine.Proofs.Order
import CardMachine.Proofs.Outline
import CardMachine.Proofs.Ownership
import CardMachine.Proofs.Partition
import CardMachine.Proofs.ProperForm
import CardMachine.Proofs.Range
import CardMachine.Proofs.Reach
import CardMachine.Proofs.Reassembly
import CardMachine.Proofs.Semantics
import CardMachine.Proofs.Session
import CardMachine.Proofs.Sleep
import CardMachine.Proofs.Snapshot.Clean
import CardMachine.Proofs.Snapshot.Load
import CardMachine.Proofs.Snapshot.Text
import CardMachine.Proofs.Standstill
import CardMachine.Proofs.Trace
import CardMachine.Proofs.Verdict
import CardMachine.Proofs.Wait
import CardMachine.Proofs.Warnings
