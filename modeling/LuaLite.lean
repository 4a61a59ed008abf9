import LuaLite.Main
import LuaLite.Json.Reader
import LuaLite.Proofs.Pieces
import LuaLite.Proofs.Reading
import LuaLite.Proofs.Assembly
import LuaLite.Proofs.Compilation
import LuaLite.Proofs.Language
import LuaLite.Proofs.Actions
import LuaLite.Proofs.Soundness
import LuaLite.Proofs.Simulation
import LuaLite.Proofs.Execution
import LuaLite.Proofs.Extension
import LuaLite.Proofs.Blocks
import LuaLite.Proofs.Truncation
import LuaLite.Proofs.Places
import LuaLite.Proofs.Cursors
import LuaLite.Proofs.Offences
import LuaLite.Proofs.Separation
import LuaLite.Proofs.Independence
import LuaLite.Proofs.Numerals
import LuaLite.Proofs.HexFloats
import LuaLite.Proofs.Printing
import LuaLite.Proofs.Integers
import LuaLite.Proofs.Recovery
import LuaLite.Proofs.Depth
import LuaLite.Proofs.Interning
import LuaLite.Proofs.Steps
import LuaLite.Proofs.Atomicity
import LuaLite.Proofs.RegisterFile
import LuaLite.Proofs.Lookahead
import LuaLite.Proofs.FloatTexts
import LuaLite.Proofs.DiagnosticJson
import LuaLite.Proofs.ChunkJson
import LuaLite.Proofs.Listings
import LuaLite.Proofs.Reports
import LuaLite.Proofs.Colours
import LuaLite.Proofs.Discipline
