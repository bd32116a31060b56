import ChipEight.Hex
import ChipEight.Text.Blank
import ChipEight.Text.Words
import ChipEight.Text.Unprintable
import ChipEight.Text.Quoted
import ChipEight.Word
import ChipEight.Instruction
import ChipEight.Instruction.Mnemonic
import ChipEight.ProgramImage
import ChipEight.Memory
import ChipEight.Listing
import ChipEight.CallStack
import ChipEight.Key
import ChipEight.Key.Datum
import ChipEight.Keypad
import ChipEight.Screen
import ChipEight.FrameSlot
import ChipEight.Keystream
import ChipEight.Rate
import ChipEight.Clock
import ChipEight.KeyHold
import ChipEight.Log
import ChipEight.Fault
import ChipEight.FileTree
import ChipEight.Font
import ChipEight.Machine
import ChipEight.Machine.Load
import ChipEight.Machine.Step
import ChipEight.Machine.Dump
import ChipEight.Machine.Operation
import ChipEight.Yaml.Character
import ChipEight.Yaml.Scalar
import ChipEight.Yaml.Token
import ChipEight.Yaml.Node
import ChipEight.Yaml.Plain
import ChipEight.Settings
import ChipEight.Failure
import ChipEight.Runner
import ChipEight.Session
import ChipEight.CommandLine
import ChipEight.Main
import ChipEight.Proofs.Machine.Effect
import ChipEight.Proofs.Machine.Footprint
import ChipEight.Proofs.Machine.History
import ChipEight.Proofs.Machine.Faulting
import ChipEight.Proofs.Machine.Subroutine
import ChipEight.Proofs.Machine.Place
import ChipEight.Proofs.Machine.Interleaving
import ChipEight.Proofs.Machine.Draws
import ChipEight.Proofs.Machine.Waiting
import ChipEight.Proofs.Screen.Overlay
import ChipEight.Proofs.Flat.Checked
import ChipEight.Proofs.Flat.Machine
import ChipEight.Proofs.Flat.Memory
import ChipEight.Proofs.Flat.Draw
import ChipEight.Proofs.Flat.Host
import ChipEight.Proofs.Flat.Refinement
import ChipEight.Proofs.Machine.Drawing
import ChipEight.Proofs.Machine.Redrawing
import ChipEight.Proofs.Clock.Backlog
import ChipEight.Proofs.KeyHold.PressAndHold
import ChipEight.Proofs.Hex.Digits
import ChipEight.Proofs.Text.Fields
import ChipEight.Proofs.Listing.Lines
import ChipEight.Proofs.Listing.RoundTrip
import ChipEight.Proofs.Memory.Block
import ChipEight.Proofs.Machine.Views
import ChipEight.Proofs.Runner.Update
import ChipEight.Proofs.Runner.Loop
import ChipEight.Proofs.Runner.Faulting
import ChipEight.Proofs.Runner.Pacing
import ChipEight.Proofs.Runner.Scripted
import ChipEight.Proofs.Runner.Delivery
import ChipEight.Proofs.Runner.Commands
import ChipEight.Proofs.Machine.Stalling
import ChipEight.Proofs.Machine.Transfer
import ChipEight.Proofs.Machine.Arithmetic
import ChipEight.Proofs.ProgramImage.Reading
import ChipEight.Proofs.Clock.Draining
import ChipEight.Proofs.Clock.Polling
import ChipEight.Proofs.Machine.Timers
import ChipEight.Proofs.Machine.Loading
import ChipEight.Proofs.Runner.Sounding
import ChipEight.Proofs.CommandLine.Grammar
import ChipEight.Proofs.Screen.Rendering
import ChipEight.Proofs.Machine.Keys
import ChipEight.Proofs.Settings.Bindings
