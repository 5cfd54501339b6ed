import Monetary.Money.Draft
import Monetary.Money.Operation
import Monetary.Money.Order
import Monetary.Money.Query
import Monetary.Money.Storage
import Monetary.Session
import Monetary.Proofs.Decimal.Value
import Monetary.Proofs.Decimal.Order
import Monetary.Proofs.Decimal.TrailingZeros
import Monetary.Proofs.Money.Equality
import Monetary.Proofs.Number.Rounding
import Monetary.Proofs.Decimal.Precision
import Monetary.Proofs.Money.Origin
import Monetary.Proofs.Money.Operation
import Monetary.Proofs.Money.Reachable
import Monetary.Proofs.Decimal.ExactDivision
import Monetary.Proofs.Decimal.RoundedDivision
import Monetary.Proofs.Money.Shortcut
import Monetary.Proofs.Decimal.Numeral
import Monetary.Proofs.Decimal.Canonical
import Monetary.Proofs.Decimal.FactorWord
import Monetary.Proofs.Decimal.DivisionAgreement
import Monetary.Proofs.Money.Order
import Monetary.Proofs.Decimal.IntegralDivision
import Monetary.Proofs.Money.Reconstruction
import Monetary.Proofs.Number.RationalRounding
import Monetary.Proofs.Number.SignificantDigits
import Monetary.Proofs.Decimal.CorrectRounding
import Monetary.Proofs.Money.Monotone
import Monetary.Proofs.Json.Tokens
import Monetary.Proofs.Json.RoundTrip
import Monetary.Proofs.Money.Storage
import Monetary.Proofs.Config.Precedence
import Monetary.Proofs.Context.Spelling
import Monetary.Proofs.Context.Resolution
import Monetary.Proofs.Session
import Monetary.Proofs.Decimal.ExactQuotient
import Monetary.Proofs.Decimal.RoundedNumber
import Monetary.Proofs.Decimal.ShiftWord
import Monetary.Proofs.Number.Opposite
import Monetary.Proofs.Number.HalfEven
import Monetary.Proofs.Decimal.DivisionByOne
import Monetary.Proofs.Money.Division
import Monetary.Proofs.Money.IntegralDivision
import Monetary.Proofs.Money.Conversion
import Monetary.Proofs.Text.Slices
import Monetary.Proofs.Decimal.Reading
import Monetary.Proofs.Decimal.Opposite
import Monetary.Proofs.Money.Opposite
import Monetary.Proofs.Decimal.FixedScale
import Monetary.Proofs.Config.Override
import Monetary.Proofs.Text.Lines
import Monetary.Proofs.Config.Properties
import Monetary.Proofs.Config.Writing
import Monetary.Proofs.Currency.Spelling
import Monetary.Proofs.Currency.Registry
import Monetary.Proofs.Decimal.ExactArithmetic
import Monetary.Proofs.Decimal.Plain
import Monetary.Proofs.Money.Draft
import Monetary.Proofs.Money.Query
import Monetary.Proofs.Money.Text
import Monetary.Proofs.Decimal.Fixed96
import Monetary.Proofs.Number.Preference
import Monetary.Proofs.Decimal.Integrality
