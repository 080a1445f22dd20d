import WordMachine.CommandLine.Folder
import WordMachine.Main
import WordMachine.Proofs.Delivery
import WordMachine.Proofs.History
import WordMachine.Proofs.Input.Conservation
import WordMachine.Proofs.Input.Stream
import WordMachine.Proofs.Provenance
import WordMachine.Proofs.Raw.Agreement
import WordMachine.Proofs.Update
import WordMachine.Proofs.Calls
import WordMachine.Proofs.Unread
import WordMachine.Proofs.StackFrame
import WordMachine.Proofs.CommandLine.Files
import WordMachine.Proofs.Copies
import WordMachine.Proofs.CommandLine.Response
import WordMachine.Proofs.Stuck
import WordMachine.Proofs.Bounds
import WordMachine.Proofs.Input.Feed
import WordMachine.Proofs.CommandLine.Scripts
import WordMachine.Proofs.Input.Queueing
import WordMachine.Proofs.Encoding
import WordMachine.Proofs.Guarded.Agreement
import WordMachine.Proofs.Arithmetic.Residue
import WordMachine.Proofs.Arithmetic.Assignment
import WordMachine.Proofs.Text.Listing
import WordMachine.Proofs.Log
import WordMachine.Proofs.Sessions
import WordMachine.Proofs.CommandLine.LogFlags
import WordMachine.Proofs.CommandLine.Interaction
import WordMachine.Proofs.Programs.Echo
import WordMachine.Proofs.Programs.Message
