import AlgoBot.Core.Table
import AlgoBot.Python.Value

/-!
# Portfolio rows

The columns of `Portfolio`, `PortfolioAllocation` and `CashFlow` that allocation and
cash flow services read or write. An allocation percentage and a risk budget are
numbers of millionths, as their columns have six decimals.
-/

namespace AlgoBot.Portfolios

open AlgoBot.Core AlgoBot.Python

/-- A portfolio, as a row and as an object loaded from it. -/
structure Portfolio where
  pk : ℕ
  current_balance : ℚ
  equity : ℚ
  net_asset_value : ℚ
deriving DecidableEq

structure PortfolioAllocation where
  pk : ℕ
  portfolio : ℕ
  strategy : String
  symbol : String
  allocation_percent : ℕ
  allocated_capital : ℚ
  risk_budget : ℕ
  metadata : Dict

/-- The four amounts of a cash flow. -/
structure Amounts where
  deposit : ℚ
  withdrawal : ℚ
  fees : ℚ
  taxes : ℚ
deriving DecidableEq

/-- What a cash flow does to the balance. -/
def Amounts.net (a : Amounts) : ℚ := a.deposit - a.withdrawal - a.fees - a.taxes

structure CashFlow where
  pk : ℕ
  portfolio : ℕ
  amounts : Amounts
  flow_type : String
  metadata : Dict

instance : HasPk Portfolio := ⟨Portfolio.pk⟩
instance : HasPk PortfolioAllocation := ⟨PortfolioAllocation.pk⟩
instance : HasPk CashFlow := ⟨CashFlow.pk⟩

@[simp] theorem pk_portfolio (p : Portfolio) : HasPk.pk p = p.pk := rfl
@[simp] theorem pk_allocation (a : PortfolioAllocation) : HasPk.pk a = a.pk := rfl
@[simp] theorem pk_cashFlow (f : CashFlow) : HasPk.pk f = f.pk := rfl

end AlgoBot.Portfolios
