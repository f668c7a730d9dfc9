import NamedQuery.Criteria.Json
import NamedQuery.Event
import NamedQuery.Json.Parse
import NamedQuery.Json.Render
import NamedQuery.Listing.Json
import NamedQuery.MemoryStore
import NamedQuery.Pager
import NamedQuery.Service
import NamedQuery.Settings.Toml
import NamedQuery.Wire.Encode
import NamedQuery.Proofs.Dict
import NamedQuery.Proofs.Definition
import NamedQuery.Proofs.Pager
import NamedQuery.Proofs.Sql.ColumnRef
import NamedQuery.Proofs.Sql.Ident
import NamedQuery.Proofs.Sql.Piece
import NamedQuery.Proofs.Sql.Rendering
import NamedQuery.Proofs.Sql.Leaf
import NamedQuery.Proofs.Sql.Lexeme
import NamedQuery.Proofs.Sql.Layout
import NamedQuery.Proofs.Sql.Tokens
import NamedQuery.Proofs.Sql.Placeholder
import NamedQuery.Proofs.Sql.Quoting
import NamedQuery.Proofs.Sql.Chain
import NamedQuery.Proofs.Sql.Formula
import NamedQuery.Proofs.Sql.Outline
import NamedQuery.Proofs.Sql.RawOperand
import NamedQuery.Proofs.Sql.Operand
import NamedQuery.Proofs.Sql.Meaning
import NamedQuery.Proofs.Sql.Denotation
import NamedQuery.Proofs.Sql.Replacement
import NamedQuery.Proofs.Sql.Secrecy
import NamedQuery.Proofs.Sql.Chunk
import NamedQuery.Proofs.Sql.WellFormed
import NamedQuery.Proofs.Sql.Arrangement
import NamedQuery.Proofs.Database
import NamedQuery.Proofs.Chain
import NamedQuery.Proofs.Bounded
import NamedQuery.Proofs.Except
import NamedQuery.Proofs.Wire.Fit
import NamedQuery.Proofs.Wire.Decode
import NamedQuery.Proofs.Service
import NamedQuery.Proofs.Json
import NamedQuery.Proofs.Listing
import NamedQuery.Proofs.Sql.Grammar
import NamedQuery.Proofs.Sql.Splice
import NamedQuery.Proofs.Filter
import NamedQuery.Proofs.Criteria
import NamedQuery.Proofs.Text.Clip
import NamedQuery.Proofs.Declaration
import NamedQuery.Proofs.Sql.Window
import NamedQuery.Proofs.Pager.Normal
import NamedQuery.Proofs.Pager.Repeated
import NamedQuery.Proofs.Sql.Cut
import NamedQuery.Proofs.Sql.Step
