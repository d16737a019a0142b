import Chip8.Assembly.Assemble
import Chip8.Assembly.Cursor
import Chip8.Assembly.Error
import Chip8.Assembly.Item
import Chip8.Assembly.Layout
import Chip8.Assembly.Listing
import Chip8.Assembly.Parse
import Chip8.Assembly.Production
import Chip8.Assembly.Slots
import Chip8.Assembly.Token
import Chip8.Bits
import Chip8.Command.Arguments
import Chip8.Command.Assemble
import Chip8.Command.Files
import Chip8.Command.Path
import Chip8.Command.Place
import Chip8.Command.Report
import Chip8.Command.Run
import Chip8.Command.System
import Chip8.Instruction.Basic
import Chip8.Instruction.Field
import Chip8.Instruction.Form
import Chip8.Instruction.Opcode
import Chip8.Machine.Basic
import Chip8.Machine.Boot
import Chip8.Machine.CallStack
import Chip8.Machine.Exec
import Chip8.Machine.Fault
import Chip8.Machine.Framebuffer
import Chip8.Machine.Host
import Chip8.Machine.Keypad
import Chip8.Machine.Memory
import Chip8.Machine.Picture
import Chip8.Machine.Run
import Chip8.Machine.Settings
import Chip8.Machine.Step
import Chip8.Machine.Trace
import Chip8.Main
import Chip8.Nibble
import Chip8.Numeral
import Chip8.Proofs.Assembly.Agreement
import Chip8.Proofs.Assembly.Arity
import Chip8.Proofs.Assembly.Capitals
import Chip8.Proofs.Assembly.Choice
import Chip8.Proofs.Assembly.Diagnosis
import Chip8.Proofs.Assembly.Image
import Chip8.Proofs.Assembly.Joining
import Chip8.Proofs.Assembly.Layout
import Chip8.Proofs.Assembly.LineEnds
import Chip8.Proofs.Assembly.Literal
import Chip8.Proofs.Assembly.Order
import Chip8.Proofs.Assembly.Passage
import Chip8.Proofs.Assembly.Printing
import Chip8.Proofs.Assembly.Reading
import Chip8.Proofs.Assembly.Recording
import Chip8.Proofs.Assembly.Rendering
import Chip8.Proofs.Assembly.Rendition
import Chip8.Proofs.Assembly.Reporting
import Chip8.Proofs.Assembly.Seam
import Chip8.Proofs.Assembly.Spacing
import Chip8.Proofs.Assembly.Spelling
import Chip8.Proofs.Assembly.Stopping
import Chip8.Proofs.Assembly.Unread
import Chip8.Proofs.Bytes
import Chip8.Proofs.Command.Assemble
import Chip8.Proofs.Command.Filing
import Chip8.Proofs.Command.LineEnds
import Chip8.Proofs.Command.Run
import Chip8.Proofs.Command.Source
import Chip8.Proofs.Command.Writing
import Chip8.Proofs.Instruction.Decoding
import Chip8.Proofs.Instruction.Encoding
import Chip8.Proofs.Machine.Arithmetic
import Chip8.Proofs.Machine.Blocks
import Chip8.Proofs.Machine.Calls
import Chip8.Proofs.Machine.Execution
import Chip8.Proofs.Machine.Flow
import Chip8.Proofs.Machine.Footprint
import Chip8.Proofs.Machine.Frame
import Chip8.Proofs.Machine.Framebuffer
import Chip8.Proofs.Machine.Interleaving
import Chip8.Proofs.Machine.Memory
import Chip8.Proofs.Machine.Overlay
import Chip8.Proofs.Machine.Picture
import Chip8.Proofs.Machine.ReadFootprint
import Chip8.Proofs.Machine.Session
import Chip8.Proofs.Machine.Settings
import Chip8.Proofs.Machine.Sprite
import Chip8.Proofs.Machine.Step
import Chip8.Proofs.Machine.Surroundings
import Chip8.Proofs.Machine.Tracking
import Chip8.Proofs.Machine.Transfer
import Chip8.Proofs.Machine.Waiting
import Chip8.Proofs.Numeral
import Chip8.Proofs.Outcome
import Chip8.Proofs.Plain.Access
import Chip8.Proofs.Plain.Drawing
import Chip8.Proofs.Plain.Handlers
import Chip8.Proofs.Plain.Machine
import Chip8.Proofs.Plain.Mirror
import Chip8.Proofs.Plain.Parts
import Chip8.Proofs.Plain.Safety
import Chip8.Proofs.Plain.Store
import Chip8.Proofs.Plain.View
import Chip8.Random.Source
import Chip8.Random.Twister
import Chip8.Text.CodeRanges
import Chip8.Text.ControlSequence
import Chip8.Text.DecimalDigit
import Chip8.Text.Newlines
import Chip8.Text.Position
import Chip8.Text.Printable
import Chip8.Text.Quoted
import Chip8.Text.Space
import Chip8.Text.Tabs
import Chip8.Text.WordCharacter
