import Tariff.Document.Notation
import Tariff.Document.Terms
import Tariff.Pricing.Board
import Tariff.Proofs.Rounding.Difference
import Tariff.Proofs.Decimal.Room
import Tariff.Proofs.Measure.Precision
import Tariff.Proofs.Pricing.Course
import Tariff.Proofs.Pricing.Ranking
import Tariff.Proofs.Pricing.Tiling
import Tariff.Proofs.Measure.Reduction
import Tariff.Proofs.Measure.PriceUnit
import Tariff.Proofs.Pricing.Normalization
import Tariff.Proofs.Pricing.Monotone
import Tariff.Proofs.Measure.Ratio
import Tariff.Proofs.Measure.NormalForm
import Tariff.Proofs.Pricing.TaxInSum
import Tariff.Proofs.Measure.Exact
import Tariff.Proofs.Pricing.Exact
import Tariff.Proofs.Pricing.Mean
import Tariff.Proofs.Measure.Roots
import Tariff.Proofs.Measure.Sameness
import Tariff.Proofs.Pricing.Currency
import Tariff.Proofs.Pricing.Queries
import Tariff.Proofs.Pricing.Permutation
import Tariff.Proofs.Pricing.Writing
import Tariff.Proofs.Pricing.Sufficiency
import Tariff.Proofs.Measure.DimensionText
import Tariff.Proofs.Measure.QuantityText
import Tariff.Proofs.Measure.Uncut
import Tariff.Proofs.Measure.Dimensional
import Tariff.Proofs.Measure.DimensionGroup
import Tariff.Proofs.Pricing.TaxSign
import Tariff.Proofs.Pricing.Equality
import Tariff.Proofs.Pricing.Drift
import Tariff.Proofs.Pricing.Board
import Tariff.Proofs.Pricing.GeneralRate
import Tariff.Proofs.Pricing.Lossless
import Tariff.Proofs.Document.Terms
import Tariff.Proofs.Pricing.Retold
import Tariff.Proofs.Measure.Canonical
import Tariff.Proofs.Rounding.Twice
import Tariff.Proofs.Measure.SingleRounding
import Tariff.Proofs.Measure.Convertible
import Tariff.Proofs.Text.Bytes
import Tariff.Proofs.Measure.DimensionRoots
import Tariff.Proofs.Pricing.Completeness
import Tariff.Proofs.Pricing.CurrencyMatch
import Tariff.Proofs.Measure.Registration
import Tariff.Proofs.Measure.Order
