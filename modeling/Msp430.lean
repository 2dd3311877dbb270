import Msp430.Text.Blank
import Msp430.Text.Lines
import Msp430.Text.Fields
import Msp430.Text.Columns
import Msp430.Text.Quoted
import Msp430.Numeral.Writer
import Msp430.Numeral.Reader
import Msp430.Bits
import Msp430.Register
import Msp430.SymbolTable
import Msp430.ObjectCode
import Msp430.Assembler.Operand
import Msp430.Assembler.Operation
import Msp430.Assembler.Diagnostic
import Msp430.Assembler.Statement
import Msp430.Assembler.State
import Msp430.Assembler.Layout
import Msp430.Assembler.Encoding
import Msp430.Assembler.ObjectFile
import Msp430.Assembler.Console
import Msp430.Workbench.Highlight
import Msp430.Workbench.Session
import Msp430.Dialect.Complaint
import Msp430.Dialect.Source
import Msp430.Dialect.Compact
import Msp430.Dialect.Extended
import Msp430.Disassembler.Fault
import Msp430.Disassembler.Words
import Msp430.Disassembler.Template
import Msp430.Disassembler.Peripherals
import Msp430.Disassembler.Instruction
import Msp430.Disassembler.Draft
import Msp430.Disassembler.Decoder
import Msp430.Disassembler.Listing
import Msp430.Disassembler.Options
import Msp430.Disassembler.Program
import Msp430.Workload.Programs
import Msp430.Workload.Runs
import Msp430.Main
import Msp430.Proofs.SymbolTable
import Msp430.Proofs.Placement
import Msp430.Proofs.Emission
import Msp430.Proofs.Locations
import Msp430.Proofs.Addresses
import Msp430.Proofs.Space
import Msp430.Proofs.Decoding
import Msp430.Proofs.Agreement
import Msp430.Proofs.Calls
import Msp430.Proofs.Jumps
import Msp430.Proofs.Lengths
import Msp430.Proofs.Streams
import Msp430.Proofs.Numerals
import Msp430.Proofs.Listings
import Msp430.Proofs.Descriptions
import Msp430.Proofs.Labels
import Msp430.Proofs.Deliveries
import Msp430.Proofs.Extension
import Msp430.Proofs.Sessions
import Msp430.Proofs.Memories
import Msp430.Proofs.Joining
import Msp430.Proofs.Relocation
import Msp430.Proofs.Renaming
import Msp430.Proofs.Respelling
import Msp430.Proofs.Positions
import Msp430.Proofs.Bindings
import Msp430.Proofs.Console
import Msp430.Proofs.Dialects
import Msp430.Proofs.Failures
import Msp430.Proofs.Codes
import Msp430.Proofs.Dependence
import Msp430.Proofs.LoneLabels
import Msp430.Proofs.NormalForms
import Msp430.Proofs.Loading
import Msp430.Proofs.ObjectFiles
import Msp430.Proofs.BitNames
import Msp430.Proofs.OwnNames
import Msp430.Proofs.Drafts
import Msp430.Proofs.Texts
import Msp430.Proofs.HighBits
import Msp430.Proofs.LongCalls
import Msp430.Proofs.Branches
import Msp430.Proofs.Displacements
import Msp430.Proofs.Contributions
import Msp430.Proofs.RelativeJumps
import Msp430.Proofs.Overlaps
import Msp430.Proofs.Series
import Msp430.Proofs.FaultGroups
import Msp430.Proofs.BackwardJumps
